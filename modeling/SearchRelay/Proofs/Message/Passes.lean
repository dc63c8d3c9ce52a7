import SearchRelay.Proofs.Message.Governed

/-!
Signals are read in two passes: first the kind and what stands beside it, and then the client from
that. Together they come to one.
-/

namespace SearchRelay

open Json Json.Decoder

namespace QueueMessage

/-- The form of the first pass, which gathers the members beside the kind, the last in front. -/
def tagForm (depth : Nat) : Form (List Char) (List (String × Value)) where
  known := ["kind"]
  needed := ["kind"]
  effect name text :=
    if name = "kind" then (made kind depth text).map fun _ acc => acc
    else (made Decoder.free depth text).map fun v acc => (name, v) :: acc

theorem tag_kind (depth : Nat) (text : List Char) : (tagForm depth).effect "kind" text =
    (made kind depth text).map fun _ acc => acc := rfl

theorem tag_other (depth : Nat) {name : String} (h : name ≠ "kind") (text : List Char) :
    (tagForm depth).effect name text =
      (made Decoder.free depth text).map fun v acc => (name, v) :: acc := if_neg h

def clientForm : Form Value QueueMessage where
  known := ["client_id"]
  needed := ["client_id"]
  effect name v :=
    if name = "client_id" then (ClientId.ofValue v).toOption.map fun c _ => newConnection c
    else some id

theorem client_other {name : String} (h : name ≠ "client_id") (v : Value) :
    clientForm.effect name v = some id := if_neg h

def form (depth : Nat) : Form (List Char) QueueMessage where
  known := ["kind", "client_id"]
  needed := ["kind", "client_id"]
  effect name text :=
    if name = "kind" then (made kind depth text).map fun _ => id
    else (made Decoder.free depth text).bind fun v => clientForm.effect name v

theorem effect_kind (depth : Nat) (text : List Char) : (form depth).effect "kind" text =
    (made kind depth text).map fun _ => id := rfl

theorem effect_other (depth : Nat) {name : String} (h : name ≠ "kind") (text : List Char) :
    (form depth).effect name text =
      (made Decoder.free depth text).bind fun v => clientForm.effect name v := if_neg h

theorem kind_steady {depth : Nat} : Steady depth kind := .parsed _ _

/-- What comes of the first pass up to the closing brace. -/
def Gathers (outcome : Outcome (Kind × Content)) (rest : List Char) :
    Option (List (String × Value)) → Prop
  | some acc => ∃ k q, outcome = .ok (.ok (k, .members acc.reverse), ⟨'\x7d' :: rest, q⟩)
  | none => (∃ e, outcome = .error e) ∨ ∃ m c, outcome = .ok (.error m, c)

theorem tagged_gathers {depth : Nat} {ms : List MemberText} (texts : ∀ m ∈ ms, IsText depth m.value)
    (seen : List String) (k : Option Kind) (hk : k.isSome ↔ "kind" ∈ seen) (first : Bool)
    (acc : List (String × Value)) (gap : Blanks) {fuel : Nat} (hfuel : ms.length < fuel)
    (rest : List Char) (p : Place) :
    Gathers (tagged depth fuel first k acc
      ⟨gap.chars ++ (joined first (ms.map MemberText.chars) ++ '\x7d' :: rest), p⟩) rest
        ((tagForm depth).fill (ms.map MemberText.content) seen acc) := by
  induction ms generalizing seen k first acc gap fuel p with
  | nil =>
    obtain ⟨fuel, rfl⟩ := Nat.exists_eq_succ_of_ne_zero (Nat.ne_zero_of_lt hfuel)
    simp only [List.map_nil, joined, List.nil_append, tagged, Cursor.nextKey_closing, Form.fill]
    cases k with
    | none =>
      have hneeded : ¬ (tagForm depth).needed ⊆ seen := by simpa [tagForm] using hk
      rw [if_neg hneeded]
      exact .inr ⟨_, _, rfl⟩
    | some k =>
      have hneeded : (tagForm depth).needed ⊆ seen := by simpa [tagForm] using hk
      rw [if_pos hneeded]
      exact ⟨k, _, rfl⟩
  | cons m ms ih =>
    obtain ⟨fuel, rfl⟩ := Nat.exists_eq_succ_of_ne_zero (Nat.ne_zero_of_lt hfuel)
    have hends : EndsNumber (joined false (ms.map MemberText.chars) ++ '\x7d' :: rest) :=
      endsNumber_joined _ rest (by rintro y ⟨⟩; decide)
    have htext : IsText depth m.item.value := texts m (by simp)
    obtain ⟨q, hq⟩ :=
      Cursor.nextKey_member first gap m (ms.map MemberText.chars) ('\x7d' :: rest) p
    have hkey := Cursor.string_key m (Cursor.behind m (ms.map MemberText.chars) ('\x7d' :: rest)) q
    rw [List.map_cons, List.map_cons, Nat.succ_eq_add_one, tagged, hq, MemberText.content]
    dsimp only
    cases hname : m.name? with
    | none =>
      obtain ⟨e, he⟩ := hname ▸ hkey
      exact .inl ⟨e, by rw [he]⟩
    | some name =>
      obtain ⟨q₁, hq₁⟩ := hname ▸ hkey
      obtain ⟨q₂, hq₂⟩ := Cursor.colon_behind m (ms.map MemberText.chars) ('\x7d' :: rest) q₁
      simp only [hq₁, hq₂, Except.bind, Form.fill]
      -- The kind is read where it stands; any other member is kept as it is for the second pass.
      by_cases hkind : name = "kind"
      · subst hkind
        have hknown : "kind" ∈ (tagForm depth).known := List.mem_singleton_self _
        simp only [if_true]
        cases k with
        | some k =>
          have hseen : "kind" ∈ seen := hk.1 rfl
          simp only [Option.isSome_some, if_true, hknown, hseen, and_self]
          exact .inr ⟨_, _, rfl⟩
        | none =>
          have hseen : "kind" ∉ seen := fun h => Bool.false_ne_true (hk.2 h)
          have hread := kind_steady.item htext hends q₂
          simp only [Option.isSome_none, Bool.false_eq_true, hseen, and_false, if_false, tag_kind,
            MemberText.value]
          cases hmade : made kind depth m.item.value with
          | none =>
            obtain ⟨e, he⟩ := hmade ▸ hread
            exact .inl ⟨e, by rw [he]⟩
          | some k =>
            obtain ⟨q₃, hq₃⟩ := hmade ▸ hread
            simp only [hq₃, Option.map_some, Option.bind_some]
            exact ih (fun n hn => texts n (by simp [hn])) _ _ (by simp) false acc m.item.behind
              (Nat.lt_of_succ_lt_succ hfuel) q₃
      · have hunknown : name ∉ (tagForm depth).known := by simpa [tagForm] using hkind
        have hread := (Steady.free : Steady depth Decoder.free).item htext hends q₂
        rw [free] at hread
        simp only [if_neg hkind, hunknown, false_and, if_false, tag_other depth hkind,
          MemberText.value]
        cases hmade : made Decoder.free depth m.item.value with
        | none =>
          obtain ⟨e, he⟩ := hmade ▸ hread
          exact .inl ⟨e, by rw [he]⟩
        | some v =>
          obtain ⟨q₃, hq₃⟩ := hmade ▸ hread
          simp only [hq₃, Option.map_some, Option.bind_some]
          exact ih (fun n hn => texts n (by simp [hn])) _ _ (by simp [hk, Ne.symm hkind]) false
            ((name, v) :: acc) m.item.behind (Nat.lt_of_succ_lt_succ hfuel) q₃

theorem clientOfMembers_fill (vs : List (String × Value)) (seen : List String)
    (s : Option ClientId) (hs : s.isSome ↔ "client_id" ∈ seen) :
    (clientOfMembers vs s).toOption.map newConnection =
      clientForm.fill (vs.map fun m => (some m.1, m.2)) seen (newConnection (s.getD ⟨0⟩)) := by
  induction vs generalizing seen s with
  | nil =>
    cases s with
    | none =>
      have hneeded : ¬ clientForm.needed ⊆ seen := by simpa [clientForm] using hs
      simp only [List.map_nil, Form.fill, if_neg hneeded]
      rfl
    | some c =>
      have hneeded : clientForm.needed ⊆ seen := by simpa [clientForm] using hs
      simp only [List.map_nil, Form.fill, if_pos hneeded]
      rfl
  | cons m vs ih =>
    obtain ⟨name, v⟩ := m
    simp only [List.map_cons, Form.fill, clientOfMembers]
    by_cases hclient : name = "client_id"
    · subst hclient
      have hknown : "client_id" ∈ clientForm.known := List.mem_singleton_self _
      have heffect : clientForm.effect "client_id" v =
        (ClientId.ofValue v).toOption.map fun c _ => newConnection c := rfl
      cases s with
      | some c =>
        have hseen : "client_id" ∈ seen := hs.1 rfl
        simp [hknown, hseen, Except.toOption]
      | none =>
        have hseen : "client_id" ∉ seen := fun h => Bool.false_ne_true (hs.2 h)
        simp only [Option.isSome_none, Bool.false_eq_true, hseen, and_false, if_true, if_false,
          heffect]
        cases ClientId.ofValue v with
        | error e => rfl
        | ok c => exact ih ("client_id" :: seen) (some c) (by simp)
    · have hunknown : name ∉ clientForm.known := by simpa [clientForm] using hclient
      simp only [if_neg hclient, hunknown, false_and, if_false, client_other hclient,
        Option.bind_some, id]
      exact ih _ _ (by simp [hs, Ne.symm hclient])

theorem fill_tagForm (depth : Nat) (ms : List (Option String × List Char)) (seen : List String)
    (acc : List (String × Value)) : (tagForm depth).fill ms seen acc =
      ((tagForm depth).fill ms seen []).map (· ++ acc) := by
  induction ms generalizing seen acc with
  | nil =>
    simp only [Form.fill]
    split <;> rfl
  | cons m ms ih =>
    obtain ⟨_ | name, text⟩ := m
    · rfl
    simp only [Form.fill]
    split
    · rfl
    by_cases hkind : name = "kind"
    · subst hkind
      rw [tag_kind]
      cases made kind depth text with
      | none => rfl
      | some k => exact ih ("kind" :: seen) acc
    · rw [tag_other depth hkind]
      cases made Decoder.free depth text with
      | none => rfl
      | some v =>
        have hfirst := ih (name :: seen) ((name, v) :: acc)
        have hsecond := ih (name :: seen) [(name, v)]
        simp only [Option.map_some, Option.bind_some]
        rw [hfirst, hsecond, Option.map_map]
        simp [Function.comp_def]

/-- Two passes come to one. -/
theorem fill_passes (depth : Nat) (ms : List (Option String × List Char)) (seen : List String)
    (m : QueueMessage) : (form depth).fill ms seen m =
      ((tagForm depth).fill ms seen []).bind fun acc =>
        clientForm.fill (acc.reverse.map fun m => (some m.1, m.2)) seen m := by
  induction ms generalizing seen m with
  | nil =>
    simp only [Form.fill]
    by_cases hkind : "kind" ∈ seen <;> by_cases hclient : "client_id" ∈ seen <;>
      simp [form, tagForm, clientForm, Form.fill, hkind, hclient]
  | cons member ms ih =>
    obtain ⟨_ | name, text⟩ := member
    · rfl
    by_cases hkind : name = "kind"
    · subst hkind
      -- The second pass knows no kind, so it makes no difference there that one was seen.
      have hclient (vs : List (Option String × Value)) : clientForm.fill vs ("kind" :: seen) m =
          clientForm.fill vs seen m :=
        Form.fill_congr (List.Subset.refl _) (by simp [clientForm])
      have hknown : "kind" ∈ (form depth).known := List.mem_cons_self
      have htag : "kind" ∈ (tagForm depth).known := List.mem_cons_self
      simp only [Form.fill, hknown, htag, true_and, effect_kind, tag_kind]
      split
      · rfl
      cases made kind depth text with
      | none => rfl
      | some k =>
        simp only [Option.map_some, Option.bind_some, id, ih, hclient]
    · have htag : name ∉ (tagForm depth).known := by simpa [tagForm] using hkind
      have hknown : name ∈ (form depth).known ↔ name ∈ clientForm.known := by
        simp [form, clientForm, hkind]
      simp only [Form.fill, htag, hknown, false_and, if_false, effect_other depth hkind,
        tag_other depth hkind]
      cases made Decoder.free depth text with
      | none => simp
      | some v =>
        simp only [Option.map_some, Option.bind_some, fill_tagForm depth ms _ [(name, v)],
          Option.bind_map, Function.comp_def, List.reverse_append, List.reverse_cons,
          List.reverse_nil, List.nil_append, List.map_cons, List.singleton_append, Form.fill, ih]
        split
        · simp
        · cases clientForm.effect name v <;> simp

theorem effect_idle (depth : Nat) {name : String} {text : List Char}
    {f : QueueMessage → QueueMessage} (hname : name ≠ "client_id")
    (hf : (form depth).effect name text = some f) : f = id := by
  by_cases hkind : name = "kind"
  · subst hkind
    rw [effect_kind] at hf
    obtain ⟨k, -, rfl⟩ := Option.map_eq_some_iff.1 hf
    rfl
  · rw [effect_other depth hkind] at hf
    obtain ⟨v, -, hv⟩ := Option.bind_eq_some_iff.1 hf
    exact (Option.some.inj ((client_other hname v).symm.trans hv)).symm

theorem apart (depth : Nat) : (form depth).Apart := by
  constructor
  case idle =>
    intro n t f hn hf
    refine effect_idle depth ?_ hf
    rintro rfl
    exact hn (by simp [form])
  case commute =>
    intro n n' t t' f g hne hf hg v
    by_cases hname : n = "client_id"
    · rw [effect_idle depth (fun h => hne (hname.trans h.symm)) hg]
      rfl
    · rw [effect_idle depth hname hf]
      rfl

theorem decoder_brace (depth : Nat) (r : List Char) (p : Place) :
    decoder (depth + 1) ⟨'\x7b' :: r, p⟩ =
      ((tagged depth (r.length + 2) true none [] ⟨r, p.after '\x7b'⟩).bind fun x =>
        close x.2.closeObject x.1).bind fun y =>
          match clientOf y.1.2 with
          | .ok client => .ok (.newConnection client, y.2)
          | .error m => .error ⟨.mismatch m, none⟩ := rfl

/-- A signal is read from an object as its members fill both passes. -/
theorem run_object (o : ObjectText) (m : QueueMessage) :
    run decoder o.text = .ok m ↔ (form 126).Filled o.contents (newConnection ⟨0⟩) m := by
  have hlength := o.length_members_lt
  have hgathers := tagged_gathers o.shallow [] none (by simp) true [] o.gap
    (by omega : o.members.length < o.inner.length + 2) o.behind.chars
    ((Place.start.past o.before.chars).after '\x7b')
  have hblanks : decoder maxDepth ⟨o.before.chars ++ '\x7b' :: o.inner, .start⟩ =
      decoder maxDepth ⟨'\x7b' :: o.inner, Place.start.past o.before.chars⟩ := by
    simp only [decoder, starting_blanks]
  rw [← Form.fill_nil_iff, fill_passes]
  refine run_comes (b := o.behind) ?_ m
  rw [hblanks, maxDepth, decoder_brace]
  change Gathers (tagged 126 _ true none [] ⟨o.inner, _⟩) _
    ((tagForm 126).fill o.contents [] []) at hgathers
  cases hfill : (tagForm 126).fill o.contents [] [] with
  | none =>
    rw [hfill] at hgathers
    obtain ⟨e, he⟩ | ⟨why, c, hc⟩ := hgathers
    · exact ⟨e, by rw [he]; rfl⟩
    · exact ⟨_, by rw [hc]; rfl⟩
  | some acc =>
    rw [hfill] at hgathers
    obtain ⟨k, q, hq⟩ := hgathers
    have hclient := clientOfMembers_fill acc.reverse [] none (by simp)
    rw [Option.getD_none] at hclient
    have hclose (content : Kind × Content) : close
        (Cursor.closeObject ⟨'\x7d' :: o.behind.chars, q⟩) (.ok content) =
          .ok (content, ⟨o.behind.chars, q.after '\x7d'⟩) := rfl
    rw [Option.bind_some, ← hclient, hq]
    simp only [Except.bind, hclose, clientOf]
    cases clientOfMembers acc.reverse none with
    | error e => exact ⟨_, rfl⟩
    | ok c => exact ⟨_, rfl⟩

theorem governed : ∃ form blank, form.known = ["kind", "client_id"] ∧
    Governed decoder form blank [] := by
  refine ⟨form 126, newConnection ⟨0⟩, rfl, run_object, apart 126, rfl, ?_, nofun⟩
  intro name text hname htext hread
  obtain ⟨hkind, hclient⟩ : name ≠ "kind" ∧ name ≠ "client_id" := by simpa [form] using hname
  obtain ⟨v, hv⟩ := hread.made htext
  rw [effect_other 126 hkind, hv, Option.bind_some, client_other hclient]
  rfl

end QueueMessage

end SearchRelay
