import SearchRelay.Json.Decoder
import SearchRelay.Proofs.Json.Values

namespace SearchRelay.Json

namespace Decoder

variable {α σ : Type}

/-- One member of an object, as the part of a record: what its text does to the record. -/
structure Part (σ : Type) where
  key : String
  text : List Char
  set : σ → σ

def Part.chars (q : Part σ) : List Char := Cursor.quoted q.key ++ ':' :: q.text

def Part.Fits (fields : List (Field σ)) (depth : Nat) (q : Part σ) : Prop :=
  ∃ f, (fields.find? fun f => f.name == q.key) = some f ∧
    ∀ rest, EndsNumber rest → Cursor.Takes (f.read depth) q.text q.set rest

variable {fields : List (Field σ)} {depth : Nat}

theorem members_step {f : Field σ} {q : Part σ} {seen : List String}
    (known : (fields.find? fun f => f.name == q.key) = some f) (new : q.key ∉ seen)
    (more : List (List Char)) (rest : List Char) (fuel : Nat) (value : σ) (p : Place) :
    members fields depth (fuel + 1) seen value
        ⟨joined seen.isEmpty (q.chars :: more) ++ rest, p⟩ =
      match f.read depth ⟨q.text ++ (joined false more ++ rest),
        ((if seen.isEmpty then p else p.after ',').past (Cursor.quoted q.key)).after ':'⟩ with
      | .error e => .error e
      | .ok (set, c) => members fields depth fuel (q.key :: seen) (set value) c := by
  have hnew : seen.contains q.key = false := by simpa using new
  rw [members, Part.chars, Cursor.nextKey_joined]
  simp only [Cursor.string_quoted, List.cons_append, known, hnew, Cursor.colon_cons, Except.bind]
  rfl

def Part.setAll (parts : List (Part σ)) (value : σ) : σ := parts.foldl (fun v q => q.set v) value

theorem members_joined (rest : List Char) (parts : List (Part σ))
    (fits : ∀ q ∈ parts, q.Fits fields depth) (seen : List String)
    (new : (parts.map Part.key ++ seen).Nodup)
    (all : ∀ f ∈ fields, f.name ∈ parts.map Part.key ++ seen) (fuel : Nat)
    (hfuel : parts.length < fuel) (value : σ) (p : Place) :
    members fields depth fuel seen value
        ⟨joined seen.isEmpty (parts.map Part.chars) ++ '\x7d' :: rest, p⟩ =
      .ok (.ok (Part.setAll parts value),
        ⟨'\x7d' :: rest, p.past (joined seen.isEmpty (parts.map Part.chars))⟩) := by
  induction parts generalizing seen fuel value p with
  | nil =>
    obtain ⟨fuel, rfl⟩ := Nat.exists_eq_succ_of_ne_zero (Nat.ne_zero_of_lt hfuel)
    have hnone : fields.find? (fun f => !seen.contains f.name) = none := by
      rw [List.find?_eq_none]
      intro f hf
      simpa using all f hf
    simp only [List.map_nil, joined, List.nil_append, members, Cursor.nextKey_end, hnone]
    rfl
  | cons q parts ih =>
    obtain ⟨fuel, rfl⟩ := Nat.exists_eq_succ_of_ne_zero (Nat.ne_zero_of_lt hfuel)
    obtain ⟨f, known, takes⟩ := fits q (by simp)
    have hends : EndsNumber (joined false (parts.map Part.chars) ++ '\x7d' :: rest) :=
      endsNumber_joined _ rest (by rintro y ⟨⟩; decide)
    have hnew : q.key ∉ seen := by
      intro hmem
      simp [hmem] at new
    generalize hstart : (if seen.isEmpty then p else p.after ',') = start
    have hread := takes _ hends ((start.past (Cursor.quoted q.key)).after ':')
    have hperm : (parts.map Part.key ++ q.key :: seen).Perm
        (q.key :: (parts.map Part.key ++ seen)) := List.perm_middle
    have hmore := ih (fun r hr => fits r (by simp [hr])) (q.key :: seen)
      (hperm.nodup_iff.2 new) (fun f hf => hperm.mem_iff.2 (all f hf)) fuel
      (Nat.lt_of_succ_lt_succ hfuel) (q.set value)
      (((start.past (Cursor.quoted q.key)).after ':').past q.text)
    rw [List.map_cons, Nat.succ_eq_add_one, members_step known hnew, hstart, hread]
    rw [List.isEmpty_cons] at hmore
    rw [past_joined, hstart, Part.chars, Place.past_append, Place.past_cons]
    exact hmore

theorem length_le_joined (first : Bool) (parts : List (Part σ)) :
    parts.length ≤ (joined first (parts.map Part.chars)).length := by
  induction parts generalizing first with
  | nil => exact Nat.zero_le _
  | cons q parts ih =>
    have hrest := ih false
    have hlength := length_joined first q.chars (parts.map Part.chars)
    have hpos : 0 < q.chars.length := by simp [Part.chars, Cursor.quoted]
    simp only [List.map_cons, List.length_cons]
    omega

theorem record_brace (fields : List (Field σ)) (depth : Nat) (name : String) (blank : σ)
    (r : List Char) (p : Place) :
    record name fields blank (depth + 1) ⟨'\x7b' :: r, p⟩ =
      (members fields depth (r.length + 2) [] blank ⟨r, p.after '\x7b'⟩).bind
        fun x => close x.2.closeObject x.1 := rfl

/-- An object that has each field of a record once is read as the record. -/
theorem record_joined (name : String) (parts : List (Part σ))
    (fits : ∀ q ∈ parts, q.Fits fields depth) (once : (parts.map Part.key).Nodup)
    (all : ∀ f ∈ fields, f.name ∈ parts.map Part.key) (blank : σ) (rest : List Char) :
    Cursor.Takes (record name fields blank (depth + 1))
      ('\x7b' :: (joined true (parts.map Part.chars) ++ ['\x7d']))
      (Part.setAll parts blank) rest := by
  intro p
  have hlength := length_le_joined true parts
  have hmembers := members_joined rest parts fits [] (by simpa using once) (by simpa using all)
    ((joined true (parts.map Part.chars) ++ '\x7d' :: rest).length + 2)
    (by simp only [List.length_append]; omega) blank (p.after '\x7b')
  rw [List.isEmpty_nil] at hmembers
  simp only [List.cons_append, List.append_assoc, List.nil_append, record_brace, hmembers]
  simp [Except.bind, close, Cursor.closeObject]
  rfl

/-- A part that cannot be read fails the record, where those before it can. -/
theorem members_fails {P : Error → Prop} {q : Part σ} {f : Field σ}
    (known : (fields.find? fun f => f.name == q.key) = some f)
    (fails : ∀ rest p, EndsNumber rest → ∃ e, P e ∧ f.read depth ⟨q.text ++ rest, p⟩ = .error e)
    (more : List (List Char)) (rest : List Char) (before : List (Part σ))
    (fits : ∀ r ∈ before, r.Fits fields depth) (seen : List String)
    (new : (before.map Part.key ++ q.key :: seen).Nodup) (fuel : Nat) (hfuel : before.length < fuel)
    (value : σ) (p : Place) :
    ∃ e, P e ∧ members fields depth fuel seen value
      ⟨joined seen.isEmpty (before.map Part.chars ++ q.chars :: more) ++ '\x7d' :: rest, p⟩ =
        .error e := by
  have hends (texts : List (List Char)) : EndsNumber (joined false texts ++ '\x7d' :: rest) :=
    endsNumber_joined _ rest (by rintro y ⟨⟩; decide)
  induction before generalizing seen fuel value p with
  | nil =>
    obtain ⟨fuel, rfl⟩ := Nat.exists_eq_succ_of_ne_zero (Nat.ne_zero_of_lt hfuel)
    have hnew : q.key ∉ seen := (List.nodup_cons.1 new).1
    rw [List.map_nil, List.nil_append, Nat.succ_eq_add_one, members_step known hnew]
    generalize ((if seen.isEmpty then p else p.after ',').past _).after ':' = start
    obtain ⟨e, he, hread⟩ := fails _ start (hends more)
    exact ⟨e, he, by rw [hread]⟩
  | cons r before ih =>
    obtain ⟨fuel, rfl⟩ := Nat.exists_eq_succ_of_ne_zero (Nat.ne_zero_of_lt hfuel)
    obtain ⟨f', known', takes⟩ := fits r (by simp)
    have hperm : (before.map Part.key ++ q.key :: r.key :: seen).Perm
        (r.key :: (before.map Part.key ++ q.key :: seen)) :=
      ((List.Perm.swap r.key q.key seen).append_left _).trans List.perm_middle
    have hnew : r.key ∉ seen := fun hmem => (List.nodup_cons.1 new).1 (by simp [hmem])
    rw [List.map_cons, List.cons_append, Nat.succ_eq_add_one, members_step known' hnew]
    generalize ((if seen.isEmpty then p else p.after ',').past _).after ':' = start
    rw [takes _ (hends _) start]
    exact ih (fun r hr => fits r (by simp [hr])) (r.key :: seen) (hperm.nodup_iff.2 new) fuel
      (Nat.lt_of_succ_lt_succ hfuel) (r.set value) (start.past r.text)

theorem record_fails {P : Error → Prop} {q : Part σ} {f : Field σ}
    (known : (fields.find? fun f => f.name == q.key) = some f)
    (fails : ∀ rest p, EndsNumber rest → ∃ e, P e ∧ f.read depth ⟨q.text ++ rest, p⟩ = .error e)
    (name : String) (before after : List (Part σ)) (fits : ∀ r ∈ before, r.Fits fields depth)
    (once : (before.map Part.key ++ [q.key]).Nodup) (blank : σ) (p : Place) :
    ∃ e, P e ∧ record name fields blank (depth + 1)
      ⟨'\x7b' :: (joined true ((before ++ q :: after).map Part.chars) ++ ['\x7d']), p⟩ =
        .error e := by
  have hlength := length_le_joined true (before ++ q :: after)
  rw [List.length_append] at hlength
  obtain ⟨e, he, hmembers⟩ := members_fails known fails (after.map Part.chars) [] before fits []
    once ((joined true ((before ++ q :: after).map Part.chars) ++ ['\x7d']).length + 2)
    (by simp only [List.length_append]; omega) blank (p.after '\x7b')
  refine ⟨e, he, ?_⟩
  rw [← List.map_cons, ← List.map_append, List.isEmpty_nil] at hmembers
  rw [record_brace, hmembers]
  rfl

theorem run_of_takes {decoder : Decoder α} {s : String} {a : α}
    (h : Cursor.Takes (decoder maxDepth) s.toList a []) : run decoder s = .ok a := by
  have hread := h .start
  rw [List.append_nil] at hread
  simp only [run, hread, bind, Except.bind]
  rfl

theorem run_of_fails {decoder : Decoder α} {s : String} {e : Error}
    (h : decoder maxDepth ⟨s.toList, .start⟩ = .error e) : run decoder s = .error e := by
  simp only [run, h, bind, Except.bind]

theorem field_takes {β : Type} {name : String} {decoder : Decoder β} {set : β → σ → σ}
    {text : List Char} {b : β} {rest : List Char}
    (h : Cursor.Takes (decoder depth) text b rest) :
    Cursor.Takes ((field name decoder set).read depth) text (set b) rest := by
  intro p
  have hread := h p
  simp only [field, hread]
  rfl

theorem text_takes (expected s : String) (rest : List Char) :
    Cursor.Takes (text expected depth) (Cursor.quoted s) s rest := by
  intro p
  have hstring := Cursor.string_quoted s rest p
  have hstart (r : List Char) : starting ⟨'"' :: r, p⟩ = .ok ('"', ⟨'"' :: r, p⟩) := rfl
  rw [Cursor.quoted, List.cons_append] at hstring ⊢
  simp only [text, hstart, bind, Except.bind, if_true, hstring]

theorem parsed_takes (expected : String) {parse : String → Except Mismatch α} {s : String} {a : α}
    (h : parse s = .ok a) (rest : List Char) :
    Cursor.Takes (parsed expected parse depth) (Cursor.quoted s) a rest := by
  intro p
  simp only [parsed, text_takes expected s rest p, bind, Except.bind, h]
  rfl

theorem free_takes {v : Value} (h : v.Proper) (hdepth : v.nesting ≤ depth) {rest : List Char}
    (hrest : EndsNumber rest) : Cursor.Takes (free depth) v.chars v rest := by
  intro p
  refine h.reads.shallow depth _ rest ?_ hrest hdepth p
  simp only [Cursor.enough, List.length_append]
  omega

theorem free_deep {v : Value} (h : v.Proper) (hdepth : depth < v.nesting) {rest : List Char}
    (hrest : EndsNumber rest) (p : Place) :
    ∃ q, free depth ⟨v.chars ++ rest, p⟩ = .error ⟨.fault .tooDeep, some q⟩ := by
  refine h.reads.deep depth _ rest p ?_ hrest hdepth
  simp only [Cursor.enough, List.length_append]
  omega

end Decoder

end SearchRelay.Json
