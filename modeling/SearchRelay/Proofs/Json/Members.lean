import SearchRelay.Proofs.Form
import SearchRelay.Proofs.Json.Deciding

/-!
Objects as records: what is read from one is decided by the names and the values of its members,
and neither by their order nor by members with other names.
-/

namespace SearchRelay.Json

variable {σ : Type}

namespace Decoder

open Cursor

variable {depth : Nat}

/-- What comes of reading the parts of a record up to its closing brace. -/
def Amounts (outcome : Outcome σ) (rest : List Char) : Option σ → Prop
  | some value => ∃ q, outcome = .ok (.ok value, ⟨'\x7d' :: rest, q⟩)
  | none => (∃ e, outcome = .error e) ∨ ∃ m c, outcome = .ok (.error m, c)

def Field.entry (depth : Nat) (f : Field σ) : Form.Entry (List Char) σ :=
  (f.name, made f.read depth)

theorem Field.commute_of_sets {α β : Type} {n n' : String} {d : Decoder α} {d' : Decoder β}
    {set : α → σ → σ} {set' : β → σ → σ} (h : ∀ x y v, set x (set' y v) = set' y (set x v)) :
    ((field n d set).entry depth).Commute ((field n' d' set').entry depth) := by
  intro t t' a b ha hb
  have ha' : (made d depth t).map set = some a := (made_field n set t).symm.trans ha
  have hb' : (made d' depth t').map set' = some b := (made_field n' set' t').symm.trans hb
  exact Form.Entry.Commute.of_sets n n' h t t' a b ha' hb'

/-- The form of a record that needs all of its fields. -/
def form (fields : List (Field σ)) (depth : Nat) : Form (List Char) σ :=
  .ofFields (fields.map (Field.entry depth)) (fields.map Field.name)

theorem known_form (fields : List (Field σ)) (depth : Nat) :
    (form fields depth).known = fields.map Field.name := List.map_map

theorem find?_entry {fields : List (Field σ)} {name : String} :
    ((fields.map (Field.entry depth)).find? fun f => f.1 == name) =
      (fields.find? fun f => f.name == name).map (Field.entry depth) := List.find?_map

theorem effect_known {fields : List (Field σ)} {name : String} {f : Field σ}
    (known : (fields.find? fun f => f.name == name) = some f) (text : List Char) :
    (form fields depth).effect name text = made f.read depth text :=
  Form.effect_known (f := f.entry depth) (find?_entry.trans (by rw [known]; rfl)) text

theorem effect_unknown {fields : List (Field σ)} {name : String}
    (unknown : name ∉ (form fields depth).known) (text : List Char) :
    (form fields depth).effect name text = some id := Form.effect_unknown unknown text

theorem mem_known {fields : List (Field σ)} {name : String} :
    name ∈ (form fields depth).known ↔ (fields.find? fun f => f.name == name).isSome := by
  simp [known_form, List.find?_isSome]

theorem members_amounts {fields : List (Field σ)} (steady : ∀ f ∈ fields, Steady depth f.read)
    {ms : List MemberText} (texts : ∀ m ∈ ms, IsText depth m.value) (seen : List String)
    (value : σ) (gap : Blanks) {fuel : Nat} (hfuel : ms.length < fuel) (rest : List Char)
    (p : Place) :
    Amounts (members fields depth fuel seen value
      ⟨gap.chars ++ (joined seen.isEmpty (ms.map MemberText.chars) ++ '\x7d' :: rest), p⟩) rest
        ((form fields depth).fill (ms.map MemberText.content) seen value) := by
  induction ms generalizing seen value gap fuel p with
  | nil =>
    obtain ⟨fuel, rfl⟩ := Nat.exists_eq_succ_of_ne_zero (Nat.ne_zero_of_lt hfuel)
    simp only [List.map_nil, joined, List.nil_append, members, nextKey_closing, Form.fill]
    have hneeded : (form fields depth).needed = fields.map Field.name := rfl
    rw [hneeded]
    by_cases hall : fields.map Field.name ⊆ seen
    · have hnone : fields.find? (fun f => !seen.contains f.name) = none := by
        rw [List.find?_eq_none]
        intro f hf
        simpa using hall (List.mem_map_of_mem hf)
      rw [hnone, if_pos hall]
      exact ⟨_, rfl⟩
    · rw [if_neg hall]
      cases hfind : fields.find? (fun f => !seen.contains f.name) with
      | some f => exact .inr ⟨_, _, rfl⟩
      | none =>
        refine (hall fun name hname => ?_).elim
        obtain ⟨f, hf, rfl⟩ := List.mem_map.1 hname
        simpa using List.find?_eq_none.1 hfind f hf
  | cons m ms ih =>
    obtain ⟨fuel, rfl⟩ := Nat.exists_eq_succ_of_ne_zero (Nat.ne_zero_of_lt hfuel)
    have hends : EndsNumber (joined false (ms.map MemberText.chars) ++ '\x7d' :: rest) :=
      endsNumber_joined _ rest (by rintro y ⟨⟩; decide)
    have htext : IsText depth m.item.value := texts m (by simp)
    have more (name : String) (value : σ) (q : Place) := ih (fun n hn => texts n (by simp [hn]))
      (name :: seen) value m.item.behind (Nat.lt_of_succ_lt_succ hfuel) q
    obtain ⟨q, hq⟩ :=
      nextKey_member seen.isEmpty gap m (ms.map MemberText.chars) ('\x7d' :: rest) p
    have hkey := string_key m (behind m (ms.map MemberText.chars) ('\x7d' :: rest)) q
    rw [List.map_cons, List.map_cons, Nat.succ_eq_add_one, members, hq, MemberText.content]
    dsimp only
    cases hname : m.name? with
    | none =>
      obtain ⟨e, he⟩ := hname ▸ hkey
      exact .inl ⟨e, by rw [he]⟩
    | some name =>
      obtain ⟨q₁, hq₁⟩ := hname ▸ hkey
      obtain ⟨q₂, hq₂⟩ := colon_behind m (ms.map MemberText.chars) ('\x7d' :: rest) q₁
      have hknown : name ∈ (form fields depth).known ↔ _ := mem_known
      simp only [hq₁, hq₂, Except.bind, Form.fill]
      -- A value under an unknown name is passed over, whatever it is.
      cases hfind : fields.find? fun f => f.name == name with
      | none =>
        have hunknown : name ∉ (form fields depth).known := by simp [hknown, hfind]
        obtain ⟨q₃, hq₃⟩ := htext.skipValue (endsNumber_blanks m.item.behind hends) m.item.before q₂
        simp only [ItemText.chars, List.append_assoc, hq₃, hunknown, false_and, if_false,
          effect_unknown hunknown, Option.bind_some]
        exact more name value q₃
      | some f =>
        have hmem : name ∈ (form fields depth).known := by simp [hknown, hfind]
        rw [effect_known hfind]
        by_cases hseen : name ∈ seen
        · simp only [List.contains_eq_mem, hseen, decide_true, if_true, hmem, and_self]
          exact .inr ⟨_, _, rfl⟩
        · have hread := (steady f (List.mem_of_find?_eq_some hfind)).item htext hends q₂
          simp only [List.contains_eq_mem, hseen, decide_false, Bool.false_eq_true, if_false,
            and_false, MemberText.value]
          cases hset : made f.read depth m.item.value with
          | none =>
            obtain ⟨e, he⟩ := hset ▸ hread
            exact .inl ⟨e, by rw [he]⟩
          | some set =>
            obtain ⟨q₃, hq₃⟩ := hset ▸ hread
            simp only [hq₃, Option.bind_some]
            exact more name (set value) q₃

end Decoder

/-- An object as it is written, with blanks around it and as deep as a reader goes at most. -/
structure ObjectText where
  before : Blanks := {}
  gap : Blanks := {}
  members : List MemberText
  behind : Blanks := {}
  shallow : ∀ m ∈ members, IsText 126 m.value

namespace ObjectText

def inner (o : ObjectText) : List Char :=
  o.gap.chars ++ (joined true (o.members.map MemberText.chars) ++ '\x7d' :: o.behind.chars)

def text (o : ObjectText) : String := String.ofList (o.before.chars ++ '\x7b' :: o.inner)

def contents (o : ObjectText) : List (Option String × List Char) :=
  o.members.map MemberText.content

theorem length_members_lt (o : ObjectText) : o.members.length < o.inner.length := by
  have hlength (first : Bool) (ms : List MemberText) :
      ms.length ≤ (joined first (ms.map MemberText.chars)).length := by
    induction ms generalizing first with
    | nil => exact Nat.zero_le _
    | cons m ms ih =>
      have hrest := ih false
      have hjoined := length_joined first m.chars (ms.map MemberText.chars)
      have hpos : 0 < m.chars.length := by
        simp [MemberText.chars, MemberText.label, Glyph.quoted]
      simp only [List.map_cons, List.length_cons]
      omega
  have hmembers := hlength true o.members
  simp only [inner, List.length_append, List.length_cons]
  omega

end ObjectText

namespace Decoder

open Cursor

variable {α : Type}

theorem run_comes {decoder : Decoder α} {text : List Char} {r : Option α} {b : Blanks}
    (h : Comes (decoder maxDepth ⟨text, .start⟩) b.chars r) (a : α) :
    run decoder (String.ofList text) = .ok a ↔ r = some a := by
  cases r with
  | none =>
    obtain ⟨e, he⟩ := h
    simp [run, he, bind, Except.bind]
  | some a' =>
    obtain ⟨q, hq⟩ := h
    have hend := skipBlanks_blanks b [] q
    rw [List.append_nil] at hend
    have hnil (p : Place) : skipBlanks ⟨[], p⟩ = ⟨[], p⟩ := rfl
    simp [run, hq, bind, Except.bind, hend, hnil, pure, Except.pure]

theorem close_amounts {outcome : Outcome σ} {rest : List Char} {r : Option σ}
    (h : Amounts outcome rest r) :
    Comes (outcome.bind fun x => close x.2.closeObject x.1) rest r := by
  cases r with
  | none =>
    obtain ⟨e, rfl⟩ | ⟨m, c, rfl⟩ := h
    · exact ⟨e, rfl⟩
    · exact ⟨_, rfl⟩
  | some value =>
    obtain ⟨q, rfl⟩ := h
    exact ⟨q.after '\x7d', rfl⟩

/-- A record is read from an object as its members fill it. -/
theorem run_record {fields : List (Field σ)} (steady : ∀ f ∈ fields, Steady 126 f.read)
    (name : String) (blank : σ) (o : ObjectText) (value : σ) :
    run (record name fields blank) o.text = .ok value ↔
      (form fields 126).Filled o.contents blank value := by
  have hlength := o.length_members_lt
  have hmembers := members_amounts steady o.shallow [] blank o.gap
    (by omega : o.members.length < o.inner.length + 2) o.behind.chars
    ((Place.start.past o.before.chars).after '\x7b')
  have hblanks : record name fields blank maxDepth
      ⟨o.before.chars ++ '\x7b' :: o.inner, .start⟩ = record name fields blank maxDepth
        ⟨'\x7b' :: o.inner, Place.start.past o.before.chars⟩ := by
    simp only [record, starting_blanks]
  have hbrace := record_brace fields 126 name blank o.inner
    (Place.start.past o.before.chars)
  rw [← Form.fill_nil_iff]
  refine run_comes (b := o.behind) ?_ value
  rw [hblanks, maxDepth, hbrace]
  exact close_amounts hmembers

end Decoder

end SearchRelay.Json
