import SearchRelay.Proofs.Yaml.Records
import Mathlib.Data.List.Forall2

namespace SearchRelay.Yaml

def IsDigit (base : Nat) (c : Char) (d : Nat) : Prop :=
  d < base ∧ (c = Nat.digitChar d ∨ c = (Nat.digitChar d).toUpper)

def digitMarks : List (Char × Nat) := [('x', 16), ('o', 8), ('b', 2)]

/-- How a natural number is written: in decimal without zeros in front, or with the mark of another
base. -/
inductive Magnitude : List Char → Nat → Prop
  | decimal (n : Nat) : Magnitude (Nat.toDigits 10 n) n
  | marked {mark : Char} {base : Nat} {cs : List Char} {ds : List Nat}
      (known : (mark, base) ∈ digitMarks) (digits : List.Forall₂ (IsDigit base) cs ds)
      (ne_nil : cs ≠ []) : Magnitude ('0' :: mark :: cs) (ds.foldl (fun n d => n * base + d) 0)

inductive Denotes : List Char → Int → Prop
  | bare {cs : List Char} {n : Nat} (h : Magnitude cs n) : Denotes cs n
  | plus {cs : List Char} {n : Nat} (h : Magnitude cs n) : Denotes ('+' :: cs) n
  | minus {cs : List Char} {n : Nat} (h : Magnitude cs n) : Denotes ('-' :: cs) (-n)

variable {base : Nat} {c : Char} {d n : Nat} {cs : List Char}

theorem digitValue?_iff_of_le (h : base ≤ 16) :
    Text.digitValue? base c = some d ↔ Text.digitValue? 16 c = some d ∧ d < base := by
  unfold Text.digitValue?
  generalize (if '0' ≤ c && c ≤ '9' then c.toNat - 48 else if 'a' ≤ c && c ≤ 'f' then c.toNat - 87
    else if 'A' ≤ c && c ≤ 'F' then c.toNat - 55 else 16) = n
  by_cases hn : n < base
  · have hn' : n < 16 := by omega
    simp only [hn, hn', if_true, Option.some.injEq]
    exact ⟨fun hd => ⟨hd, hd ▸ hn⟩, And.left⟩
  · simp only [hn, if_false, Option.ite_none_right_eq_some, Option.some.injEq]
    refine ⟨nofun, ?_⟩
    rintro ⟨⟨-, rfl⟩, hd⟩
    exact absurd hd hn

theorem toNat_lt_of_digitValue? (h : Text.digitValue? 16 c = some d) : c.toNat < 103 := by
  have hle {x : Char} (hx : c ≤ x) : c.toNat ≤ x.toNat := UInt32.le_iff_toNat_le.1 hx
  unfold Text.digitValue? at h
  split at h
  · rename_i hc
    exact Nat.lt_of_le_of_lt (hle (by simpa using (Bool.and_eq_true_iff.1 hc).2)) (by decide)
  split at h
  · rename_i hc
    exact Nat.lt_of_le_of_lt (hle (by simpa using (Bool.and_eq_true_iff.1 hc).2)) (by decide)
  split at h
  · rename_i hc
    exact Nat.lt_of_le_of_lt (hle (by simpa using (Bool.and_eq_true_iff.1 hc).2)) (by decide)
  · cases h

theorem digitValue?_iff (h : base ≤ 16) : Text.digitValue? base c = some d ↔ IsDigit base c d := by
  have hdigits : ∀ d < 16, Text.digitValue? 16 (Nat.digitChar d) = some d ∧
      Text.digitValue? 16 (Nat.digitChar d).toUpper = some d := by decide
  have hchars : ∀ n < 103, ∀ d < 16, Text.digitValue? 16 (Char.ofNat n) = some d →
      Char.ofNat n = Nat.digitChar d ∨ Char.ofNat n = (Nat.digitChar d).toUpper := by
    decide +kernel
  rw [digitValue?_iff_of_le h]
  constructor
  · rintro ⟨hvalue, hd⟩
    have hc := hchars c.toNat (toNat_lt_of_digitValue? hvalue) d (by omega)
    rw [Char.ofNat_toNat] at hc
    exact ⟨hd, hc hvalue⟩
  · rintro ⟨hd, rfl | rfl⟩
    · exact ⟨(hdigits d (by omega)).1, hd⟩
    · exact ⟨(hdigits d (by omega)).2, hd⟩

theorem natOfDigits?_iff (h : base ≤ 16) (acc : Nat) : Text.natOfDigits? base cs acc = some n ↔
    ∃ ds, List.Forall₂ (IsDigit base) cs ds ∧ n = ds.foldl (fun n d => n * base + d) acc := by
  induction cs generalizing acc with
  | nil =>
    rw [Text.natOfDigits?]
    constructor
    · rintro ⟨⟩
      exact ⟨[], .nil, rfl⟩
    · rintro ⟨ds, ⟨⟩, rfl⟩
      rfl
  | cons c cs ih =>
    rw [Text.natOfDigits?]
    constructor
    · intro hread
      cases hc : Text.digitValue? base c with
      | none =>
        rw [hc] at hread
        cases hread
      | some d =>
        rw [hc] at hread
        obtain ⟨ds, hds, rfl⟩ := (ih _).1 hread
        exact ⟨d :: ds, .cons ((digitValue?_iff h).1 hc) hds, rfl⟩
    · rintro ⟨ds, hds, rfl⟩
      obtain _ | ⟨hc, hcs⟩ := hds
      rw [(digitValue?_iff h).2 hc]
      exact (ih _).2 ⟨_, hcs, rfl⟩

theorem readNat?_iff (h : base ≤ 16) : Text.readNat? base cs = some n ↔
    cs ≠ [] ∧ ∃ ds, List.Forall₂ (IsDigit base) cs ds ∧
      n = ds.foldl (fun n d => n * base + d) 0 := by
  cases cs with
  | nil => simp [Text.readNat?]
  | cons c cs => simp [Text.readNat?, natOfDigits?_iff h]

theorem isDigit_of_isDigit (h : IsDigit 10 c d) : Text.isDigit c ∧ c.toNat - 48 = d := by
  have hdigits : ∀ d < 10, (Nat.digitChar d).toUpper = Nat.digitChar d ∧
      (Nat.digitChar d).toNat - 48 = d := by decide
  obtain ⟨hd, hc⟩ := h
  obtain ⟨hupper, hvalue⟩ := hdigits d hd
  rw [hupper, or_self] at hc
  exact hc ▸ ⟨Numeral.isDigit_digitChar hd, hvalue⟩

theorem ofDigitChars_of_readNat? (hread : Text.readNat? 10 cs = some n) :
    cs ≠ [] ∧ (∀ c ∈ cs, Text.isDigit c) ∧ Nat.ofDigitChars 10 cs 0 = n := by
  obtain ⟨ne_nil, ds, hds, rfl⟩ := (readNat?_iff (by decide)).1 hread
  refine ⟨ne_nil, ?_, ?_⟩
  · clear hread ne_nil
    induction hds with
    | nil => nofun
    | cons hc _ ih => exact List.forall_mem_cons.2 ⟨(isDigit_of_isDigit hc).1, ih⟩
  · clear hread ne_nil
    generalize 0 = acc
    induction hds generalizing acc with
    | nil => rfl
    | @cons c d cs ds hc _ ih =>
      rw [List.foldl_cons, ← ih, Numeral.ofDigitChars_cons, (isDigit_of_isDigit hc).2]

theorem eq_toDigits_of_readNat? (hread : Text.readNat? 10 cs = some n)
    (hzero : Resolve.hasLeadingZero cs = false) : cs = Nat.toDigits 10 n := by
  obtain ⟨ne_nil, hdigit, rfl⟩ := ofDigitChars_of_readNat? hread
  rw [Numeral.toDigits_ofDigitChars ne_nil hdigit]
  intro hhead
  cases cs with
  | nil => cases hhead
  | cons c r =>
    obtain rfl := Option.some.inj hhead
    have hall : r.all Text.isDigit := List.all_eq_true.2 fun c hc => hdigit c (.tail _ hc)
    have hshort : (!r.isEmpty && r.all Text.isDigit) = false := hzero
    rw [hall, Bool.and_true, Bool.not_eq_false', List.isEmpty_iff] at hshort
    rw [hshort]

theorem Magnitude.eq_cons (h : Magnitude cs n) : ∃ x r, cs = x :: r ∧ Text.isDigit x := by
  cases h with
  | decimal n => exact Numeral.toDigits_eq_cons n
  | marked known digits ne_nil => exact ⟨'0', _, rfl, rfl⟩

theorem magnitude?_iff : Resolve.magnitude? cs = some n ↔ Magnitude cs n := by
  constructor
  · intro h
    unfold Resolve.magnitude? at h
    split at h
    · obtain ⟨ne_nil, ds, hds, rfl⟩ := (readNat?_iff (by decide)).1 h
      exact .marked (by decide) hds ne_nil
    · obtain ⟨ne_nil, ds, hds, rfl⟩ := (readNat?_iff (by decide)).1 h
      exact .marked (by decide) hds ne_nil
    · obtain ⟨ne_nil, ds, hds, rfl⟩ := (readNat?_iff (by decide)).1 h
      exact .marked (by decide) hds ne_nil
    · split at h
      · cases h
      · rename_i hzero
        obtain rfl := eq_toDigits_of_readNat? h (Bool.eq_false_iff.2 hzero)
        exact .decimal n
  · rintro (n | @⟨mark, base, cs, ds, known, digits, ne_nil⟩)
    · exact Decoder.magnitude?_toDigits n
    · simp only [digitMarks, List.mem_cons, Prod.mk.injEq, List.not_mem_nil, or_false] at known
      obtain ⟨rfl, rfl⟩ | ⟨rfl, rfl⟩ | ⟨rfl, rfl⟩ := known
      · exact (readNat?_iff (by decide)).2 ⟨ne_nil, ds, digits, rfl⟩
      · exact (readNat?_iff (by decide)).2 ⟨ne_nil, ds, digits, rfl⟩
      · exact (readNat?_iff (by decide)).2 ⟨ne_nil, ds, digits, rfl⟩

theorem integer?_iff {k : Int} : Resolve.integer? cs = some k ↔ Denotes cs k := by
  constructor
  · intro h
    unfold Resolve.integer? at h
    split at h
    case h_1 r =>
      cases hr : Resolve.magnitude? r with
      | none => simp [hr] at h
      | some n =>
        obtain rfl : -(n : Int) = k := by simpa [hr] using h
        exact .minus (magnitude?_iff.1 hr)
    case h_2 r =>
      cases hr : Resolve.magnitude? r with
      | none => simp [hr] at h
      | some n =>
        obtain rfl : (n : Int) = k := by simpa [hr] using h
        exact .plus (magnitude?_iff.1 hr)
    case h_3 =>
      cases hcs : Resolve.magnitude? cs with
      | none => simp [hcs] at h
      | some n =>
        obtain rfl : (n : Int) = k := by simpa [hcs] using h
        exact .bare (magnitude?_iff.1 hcs)
  · rintro (h | h | h)
    · obtain ⟨x, r, rfl, hx⟩ := h.eq_cons
      unfold Resolve.integer?
      split
      · rename_i heq
        obtain ⟨rfl, -⟩ := List.cons.inj heq
        cases hx
      · rename_i heq
        obtain ⟨rfl, -⟩ := List.cons.inj heq
        cases hx
      · rw [magnitude?_iff.2 h]
        rfl
    · rw [Resolve.integer?, magnitude?_iff.2 h]
      rfl
    · rw [Resolve.integer?, magnitude?_iff.2 h]
      rfl

/-- No text denotes two integers. -/
theorem Denotes.unique {k l : Int} (hk : Denotes cs k) (hl : Denotes cs l) : k = l :=
  Option.some.inj ((integer?_iff.2 hk).symm.trans (integer?_iff.2 hl))

theorem Denotes.nonneg {k : Int} (h : Denotes cs k) (unsigned : cs.head? ≠ some '-') : 0 ≤ k := by
  cases h with
  | bare h | plus h => exact Int.natCast_nonneg _
  | minus h => exact absurd rfl unsigned

theorem unsigned?_iff : Resolve.unsigned? cs = some n ↔
    cs.head? ≠ some '-' ∧ Denotes cs n ∧ n < Nat.pow 2 64 := by
  unfold Resolve.unsigned?
  split
  · simp
  · rename_i hminus
    have hhead : cs.head? ≠ some '-' := by
      intro h
      obtain ⟨r, rfl⟩ := List.head?_eq_some_iff.1 h
      exact hminus r rfl
    constructor
    · intro h
      split at h
      · rename_i k hk
        obtain ⟨hbound, hn⟩ := Option.ite_none_right_eq_some.1 h
        obtain rfl := Option.some.inj hn
        have hdenotes := integer?_iff.1 hk
        have hnat : (k.toNat : Int) = k := Int.toNat_of_nonneg (hdenotes.nonneg hhead)
        rw [← hnat] at hdenotes hbound
        exact ⟨hhead, hdenotes, Int.ofNat_lt.1 hbound⟩
      · cases h
    · rintro ⟨-, hn, hrange⟩
      have hbound : (n : Int) < Nat.pow 2 64 := Int.ofNat_lt.2 hrange
      rw [integer?_iff.2 hn]
      simp only [if_pos hbound, Int.toNat_natCast]

end SearchRelay.Yaml
