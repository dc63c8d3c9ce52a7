import Mathlib.Data.List.Perm.Basic
import SearchRelay.Json.Extractor
import SearchRelay.Proofs.Json.Record

/-!
What a JSON value means to a reader of its text and to one of the value itself. A record means the
same with its members in whatever order, and so with the keys sorted.
-/

namespace SearchRelay.Json

namespace Members

theorem set_perm {key : String} (v : Value) {acc : Members} (new : key ∉ acc.map Prod.fst) :
    (acc.set key v).Perm ((key, v) :: acc) := by
  induction acc with
  | nil => exact .refl _
  | cons m acc ih =>
    rw [List.map_cons, List.mem_cons, not_or] at new
    have hrest := ((ih new.2).cons m).trans (.swap (key, v) m acc)
    rw [set]
    split
    · exact .refl _
    split
    · exact hrest
    · rename_i hlt hgt
      exact absurd (String.le_antisymm (String.not_lt.1 hgt) (String.not_lt.1 hlt)) new.1

theorem key_of_mem_set {key : String} {v : Value} {acc : Members} {m : String × Value}
    (h : m ∈ acc.set key v) : m.1 = key ∨ m ∈ acc := by
  induction acc with
  | nil => exact .inl (by rw [List.mem_singleton.1 h])
  | cons n acc ih =>
    rw [set] at h
    split at h
    · rcases List.mem_cons.1 h with rfl | h
      · exact .inl rfl
      · exact .inr h
    split at h
    · rcases List.mem_cons.1 h with rfl | h
      · exact .inr (by simp)
      · exact (ih h).imp_right (List.mem_cons_of_mem n)
    · rcases List.mem_cons.1 h with rfl | h
      · exact .inl rfl
      · exact .inr (List.mem_cons_of_mem n h)

theorem sorted_set (key : String) (v : Value) {acc : Members}
    (sorted : acc.Pairwise (·.1 < ·.1)) : (acc.set key v).Pairwise (·.1 < ·.1) := by
  induction acc with
  | nil => exact List.pairwise_singleton _ _
  | cons m acc ih =>
    obtain ⟨first, rest⟩ := List.pairwise_cons.1 sorted
    rw [set]
    split
    · rename_i hlt
      refine List.pairwise_cons.2 ⟨fun n hn => ?_, sorted⟩
      rcases List.mem_cons.1 hn with rfl | hn
      · exact hlt
      · exact String.lt_trans hlt (first n hn)
    split
    · rename_i hlt
      refine List.pairwise_cons.2 ⟨fun n hn => ?_, ih rest⟩
      rcases key_of_mem_set hn with hkey | hn
      · exact hkey ▸ hlt
      · exact first n hn
    · rename_i hlt hgt
      obtain rfl : key = m.1 := String.le_antisymm (String.not_lt.1 hgt) (String.not_lt.1 hlt)
      exact List.pairwise_cons.2 ⟨first, rest⟩

theorem sorted_ofList (ms : List (String × Value)) : (ofList ms).Pairwise (·.1 < ·.1) := by
  have step (acc : Members) (sorted : acc.Pairwise (·.1 < ·.1)) :
      (ms.foldl (fun acc m => set m.1 m.2 acc) acc).Pairwise (·.1 < ·.1) := by
    induction ms generalizing acc with
    | nil => exact sorted
    | cons m ms ih => exact ih _ (sorted_set m.1 m.2 sorted)
  exact step [] .nil

theorem foldl_set_perm (ms : List (String × Value)) (acc : Members)
    (once : ((ms ++ acc).map Prod.fst).Nodup) :
    (ms.foldl (fun acc (k, v) => set k v acc) acc).Perm (ms ++ acc) := by
  induction ms generalizing acc with
  | nil => exact .refl _
  | cons m ms ih =>
    have hnew : m.1 ∉ acc.map Prod.fst := fun h => by
      simp only [List.cons_append, List.map_cons, List.nodup_cons, List.map_append,
        List.mem_append] at once
      exact once.1 (.inr h)
    have hset := ((set_perm m.2 hnew).append_left ms).trans List.perm_middle
    exact (ih _ ((hset.map Prod.fst).nodup_iff.2 once)).trans hset

theorem ofList_perm {ms : List (String × Value)} (once : (ms.map Prod.fst).Nodup) :
    (ofList ms).Perm ms := by
  have h := foldl_set_perm ms [] (by rwa [List.append_nil])
  rwa [List.append_nil] at h

end Members

/-- Members that are scalars, each with a key of its own. -/
structure Flat (ms : List (String × Value)) : Prop where
  once : (ms.map Prod.fst).Nodup
  each : ∀ m ∈ ms, m.2.Scalar

namespace Flat

variable {ms : List (String × Value)}

theorem nesting (h : Flat ms) : (Value.object ms).nesting = 1 := by
  have hle : Value.nestingOfMembers ms ≤ 0 :=
    Value.nestingOfMembers_le_iff.2 fun m hm => Nat.le_of_eq (h.each m hm).nesting
  rw [Value.nesting, Nat.le_zero.1 hle]

theorem sorted (h : Flat ms) : Flat (Members.ofList ms) := by
  have hperm := Members.ofList_perm h.once
  exact ⟨(hperm.map Prod.fst).nodup_iff.2 h.once, fun m hm => h.each m (hperm.mem_iff.1 hm)⟩

theorem proper (h : Flat ms) : (Value.ofMembers ms).Proper :=
  .object (List.pairwise_map.2 (Members.sorted_ofList ms)) fun m hm => (h.sorted.each m hm).proper

end Flat

/-- A value is read as `b` by one who has its text, and by one who has itself. -/
structure Means {β : Type} (decoder : Decoder β) (extractor : Extractor β) (v : Value) (b : β) :
    Prop where
  takes (depth : Nat) (rest : List Char) : v.nesting ≤ depth → EndsNumber rest →
    Cursor.Takes (decoder depth) v.chars b rest
  extracts : extractor v = .ok b

namespace Means

variable {α β σ : Type} {decoder : Decoder β} {extractor : Extractor β} {v : Value} {b : β}

theorem run (h : Means decoder extractor v b) (shallow : v.nesting ≤ maxDepth) :
    Decoder.run decoder v.toText = .ok b :=
  Decoder.run_of_takes (h.takes maxDepth [] shallow nofun)

theorem of_text (expected s : String) :
    Means (Decoder.text expected) (Extractor.text expected) (.string s) s := by
  refine ⟨fun depth rest _ _ => ?_, rfl⟩
  rw [Value.chars_string]
  exact Decoder.text_takes expected s rest

theorem of_parsed (expected : String) {parse : String → Except Mismatch α} {s : String} {a : α}
    (h : parse s = .ok a) :
    Means (Decoder.parsed expected parse) (Extractor.parsed expected parse) (.string s) a := by
  refine ⟨fun depth rest _ _ => ?_, h⟩
  rw [Value.chars_string]
  exact Decoder.parsed_takes expected h rest

theorem of_bool (b : Bool) : Means Decoder.bool Extractor.bool (.bool b) b := by
  refine ⟨fun depth rest _ _ p => ?_, rfl⟩
  cases b <;> rfl

theorem of_word {n : Nat} (h : n < Nat.pow 2 64) :
    Means Decoder.word Extractor.word (.nat n) n := by
  refine ⟨fun depth rest _ hrest p => ?_, by simp [Extractor.word, Value.nat]⟩
  obtain ⟨x, r, hx, hdigit⟩ := Numeral.toDigits_eq_cons n
  have hnumber := Cursor.number_digits false h hrest p
  have hminus : x ≠ '-' := by
    rintro rfl
    cases hdigit
  rw [Value.chars_nat]
  rw [hx, List.cons_append] at hnumber ⊢
  have hstart : Decoder.starting ⟨x :: (r ++ rest), p⟩ = .ok (x, ⟨x :: (r ++ rest), p⟩) := by
    simp [Decoder.starting, Cursor.skipBlanks_cons (Value.isSpace_of_digit hdigit)]
  simp [Decoder.word, hstart, bind, Except.bind, hdigit, hminus, hnumber, pure, Except.pure]

def named (names : List (String × α)) (s : String) : Except Mismatch α :=
  match names.lookup s with
  | some a => .ok a
  | none => .error (.unknownVariant s (names.map Prod.fst))

theorem of_variant {names : List (String × α)} {s : String} {a : α} (h : names.lookup s = some a) :
    Means (Decoder.variant names) (Extractor.variant names) (.string s) a := by
  have hname : named names s = .ok a := by rw [named, h]
  refine ⟨fun depth rest _ _ p => ?_, hname⟩
  have hparsed := @Decoder.parsed_takes _ depth "variant identifier" _ s a hname rest p
  rw [Value.chars_string]
  rw [Cursor.quoted, List.cons_append] at hparsed ⊢
  exact hparsed

theorem field (name : String) (set : β → σ → σ) (h : Means decoder extractor v b) :
    Means (Decoder.field name decoder set).read (Extractor.field name extractor set).read v
      (set b) := by
  refine ⟨fun depth rest hdepth hrest => Decoder.field_takes (h.takes depth rest hdepth hrest), ?_⟩
  simp only [Extractor.field, h.extracts]
  rfl

end Means

/-- A member of an object, and what it is for a record that is read from the object. -/
structure Slot (σ : Type) where
  key : String
  value : Value
  set : σ → σ

namespace Slot

variable {σ : Type}

def entry (q : Slot σ) : String × Value := (q.key, q.value)

def part (q : Slot σ) : Decoder.Part σ := ⟨q.key, q.value.chars, q.set⟩

def Fits (fields : List (Decoder.Field σ)) (extractors : List (Extractor.Field σ)) (q : Slot σ) :
    Prop :=
  ∃ f g, (fields.find? fun f => f.name == q.key) = some f ∧
    (extractors.find? fun g => g.name == q.key) = some g ∧ Means f.read g.read q.value q.set

def setAll (slots : List (Slot σ)) (value : σ) : σ := slots.foldl (fun v q => q.set v) value

theorem setAll_part (slots : List (Slot σ)) (value : σ) :
    Decoder.Part.setAll (slots.map part) value = setAll slots value := by
  rw [Decoder.Part.setAll, List.foldl_map]
  rfl

theorem chars_part (slots : List (Slot σ)) : (Value.object (slots.map entry)).chars =
    '\x7b' :: (joined true ((slots.map part).map Decoder.Part.chars) ++ ['\x7d']) := by
  rw [Value.chars_object, List.map_map, List.map_map]
  rfl

end Slot

/-- The slots of a record: each of its fields once. -/
structure Filled {σ : Type} (fields : List (Decoder.Field σ))
    (extractors : List (Extractor.Field σ)) (slots : List (Slot σ)) : Prop where
  fits : ∀ q ∈ slots, q.Fits fields extractors
  once : (slots.map Slot.key).Nodup
  decoded : ∀ f ∈ fields, f.name ∈ slots.map Slot.key
  extracted : ∀ g ∈ extractors, g.name ∈ slots.map Slot.key

namespace Filled

variable {σ : Type} {fields : List (Decoder.Field σ)} {extractors : List (Extractor.Field σ)}
  {slots : List (Slot σ)}

theorem perm {more : List (Slot σ)} (h : Filled fields extractors slots) (same : more.Perm slots) :
    Filled fields extractors more := by
  have hkeys := same.map Slot.key
  exact ⟨fun q hq => h.fits q (same.mem_iff.1 hq), hkeys.nodup_iff.2 h.once,
    fun f hf => hkeys.mem_iff.2 (h.decoded f hf), fun g hg => hkeys.mem_iff.2 (h.extracted g hg)⟩

theorem extractor_members (slots : List (Slot σ)) (fits : ∀ q ∈ slots, q.Fits fields extractors)
    (seen : List String) (new : (slots.map Slot.key ++ seen).Nodup)
    (all : ∀ g ∈ extractors, g.name ∈ slots.map Slot.key ++ seen) (value : σ) :
    Extractor.members extractors seen value (slots.map Slot.entry) =
      .ok (Slot.setAll slots value) := by
  induction slots generalizing seen value with
  | nil =>
    have hnone : extractors.find? (fun g => !seen.contains g.name) = none := by
      rw [List.find?_eq_none]
      intro g hg
      simpa using all g hg
    simp only [List.map_nil, Extractor.members, hnone]
    rfl
  | cons q slots ih =>
    obtain ⟨f, g, -, known, means⟩ := fits q (by simp)
    have hnew : seen.contains q.key = false := by
      simp only [List.map_cons, List.cons_append, List.nodup_cons, List.mem_append, not_or] at new
      simpa using new.1.2
    have hperm : (slots.map Slot.key ++ q.key :: seen).Perm
        (q.key :: (slots.map Slot.key ++ seen)) := List.perm_middle
    have hmore := ih (fun r hr => fits r (by simp [hr])) (q.key :: seen) (hperm.nodup_iff.2 new)
      (fun g hg => hperm.mem_iff.2 (all g hg)) (q.set value)
    simp only [List.map_cons, Slot.entry, Extractor.members, known, hnew, means.extracts]
    exact hmore

theorem means (h : Filled fields extractors slots) (name : String) (blank : σ) :
    Means (Decoder.record name fields blank) (Extractor.record name extractors blank)
      (.object (slots.map Slot.entry)) (Slot.setAll slots blank) := by
  constructor
  case takes =>
    intro depth rest hdepth hrest
    obtain ⟨depth, rfl⟩ := Nat.exists_eq_succ_of_ne_zero (Nat.ne_zero_of_lt hdepth)
    have hshallow (q : Slot σ) (hq : q ∈ slots) : q.value.nesting ≤ depth :=
      Value.nestingOfMembers_le_iff.1 (Nat.le_of_succ_le_succ hdepth) _ (List.mem_map_of_mem hq)
    have hkeys : (slots.map Slot.part).map Decoder.Part.key = slots.map Slot.key := List.map_map
    have fits : ∀ q ∈ slots.map Slot.part, q.Fits fields depth := by
      intro q hq
      obtain ⟨r, hr, rfl⟩ := List.mem_map.1 hq
      obtain ⟨f, g, known, -, means⟩ := h.fits r hr
      exact ⟨f, known, fun rest hrest => means.takes depth rest (hshallow r hr) hrest⟩
    rw [Slot.chars_part, ← Slot.setAll_part]
    exact Decoder.record_joined name _ fits (hkeys ▸ h.once) (hkeys ▸ h.decoded) blank rest
  case extracts =>
    exact extractor_members slots h.fits [] (by simpa using h.once) (by simpa using h.extracted)
      blank

/-- So is the object with its keys sorted, where the slots leave each other alone. -/
theorem means_sorted (h : Filled fields extractors slots)
    (apart : ∀ q ∈ slots, ∀ r ∈ slots, ∀ x : σ, r.set (q.set x) = q.set (r.set x)) (name : String)
    (blank : σ) : Means (Decoder.record name fields blank) (Extractor.record name extractors blank)
      (.ofMembers (slots.map Slot.entry)) (Slot.setAll slots blank) := by
  have hkeys : (slots.map Slot.entry).map Prod.fst = slots.map Slot.key := List.map_map
  -- The sorted members are those of the same slots in another order.
  have hentries : List.Forall₂ (fun m q => m = Slot.entry q) (slots.map Slot.entry) slots :=
    List.forall₂_map_left_iff.2 (List.forall₂_same.2 fun _ _ => rfl)
  obtain ⟨more, hmore, same⟩ :=
    List.perm_comp_forall₂ (Members.ofList_perm (hkeys ▸ h.once)) hentries
  have hsorted : Members.ofList (slots.map Slot.entry) = more.map Slot.entry :=
    List.forall₂_eq_eq_eq ▸ List.forall₂_map_right_iff.2 hmore
  have hset : Slot.setAll more blank = Slot.setAll slots blank :=
    (same.symm.foldl_eq' (fun q hq r hr x => apart q hq r hr x) blank).symm
  rw [Value.ofMembers, hsorted, ← hset]
  exact (h.perm same).means name blank

end Filled

end SearchRelay.Json
