import Mathlib.Algebra.Group.Nat.Defs
import SearchRelay.Text.Numeral

namespace SearchRelay.Numeral

open Text

section

variable {b : Nat} (hb : 1 < b) (hmax : b ≤ 16)

theorem digitValue?_digitChar {b d : Nat} (hmax : b ≤ 16) (hd : d < b) :
    digitValue? b (Nat.digitChar d) = some d := by
  have hall : ∀ b : Fin 17, ∀ d : Fin 16, d.val < b.val →
      digitValue? b (Nat.digitChar d) = some d.val := by decide
  exact hall ⟨b, Nat.lt_succ_of_le hmax⟩ ⟨d, Nat.lt_of_lt_of_le hd hmax⟩ hd

theorem natOfDigits?_append (ds more : List Char) (acc : Nat) :
    natOfDigits? b (ds ++ more) acc = (natOfDigits? b ds acc).bind (natOfDigits? b more) := by
  induction ds generalizing acc with
  | nil => rfl
  | cons d ds ih =>
    rw [List.cons_append, natOfDigits?, natOfDigits?]
    cases digitValue? b d with
    | none => rfl
    | some v => exact ih _

include hb hmax in
/-- A numeral spells the number of which it was made. -/
theorem natOfDigits?_toDigits (n : Nat) : natOfDigits? b (Nat.toDigits b n) 0 = some n := by
  induction n using Nat.strongRecOn with
  | ind n ih =>
    by_cases hn : n < b
    · rw [Nat.toDigits_of_lt_base hn, natOfDigits?, digitValue?_digitChar hmax hn]
      simp [natOfDigits?]
    · have hdiv : n / b < n := Nat.div_lt_self (by omega) hb
      have hmod : n % b < b := Nat.mod_lt n (by omega)
      rw [Nat.toDigits_of_base_le hb (Nat.le_of_not_lt hn), natOfDigits?_append, ih _ hdiv,
        Option.bind_some, natOfDigits?, digitValue?_digitChar hmax hmod]
      exact congrArg some (Nat.div_add_mod' n b)

include hb in
theorem mem_toDigits {n : Nat} {c : Char} (h : c ∈ Nat.toDigits b n) :
    ∃ d < b, c = Nat.digitChar d := by
  induction n using Nat.strongRecOn with
  | ind n ih =>
    by_cases hn : n < b
    · rw [Nat.toDigits_of_lt_base hn, List.mem_singleton] at h
      exact ⟨n, hn, h⟩
    · rw [Nat.toDigits_of_base_le hb (Nat.le_of_not_lt hn), List.mem_append,
        List.mem_singleton] at h
      rcases h with h | h
      · exact ih _ (Nat.div_lt_self (by omega) hb) h
      · exact ⟨n % b, Nat.mod_lt n (by omega), h⟩

def padded (b width n : Nat) : List Char :=
  List.replicate (width - (Nat.toDigits b n).length) '0' ++ Nat.toDigits b n

include hb in
theorem length_padded {width n : Nat} (hpos : 0 < width) (h : n < b ^ width) :
    (padded b width n).length = width := by
  have hle := (Nat.length_toDigits_le_iff hb hpos).2 h
  simp only [padded, List.length_append, List.length_replicate]
  omega

include hb in
theorem mem_padded {width n : Nat} {c : Char} (h : c ∈ padded b width n) :
    ∃ d < b, c = Nat.digitChar d := by
  rw [padded, List.mem_append] at h
  rcases h with h | h
  · exact ⟨0, by omega, List.eq_of_mem_replicate h⟩
  · exact mem_toDigits hb h

include hb hmax in
theorem natOfDigits?_padded (width n : Nat) : natOfDigits? b (padded b width n) 0 = some n := by
  have hzeros (k : Nat) : natOfDigits? b (List.replicate k '0') 0 = some 0 := by
    induction k with
    | zero => rfl
    | succ k ih =>
      have hzero : digitValue? b '0' = some 0 := digitValue?_digitChar (d := 0) hmax (by omega)
      rw [List.replicate_succ, natOfDigits?, hzero, Nat.zero_mul]
      exact ih
  rw [padded, natOfDigits?_append, hzeros, Option.bind_some, natOfDigits?_toDigits hb hmax]

include hb hmax in
theorem readNat?_padded (width n : Nat) : readNat? b (padded b width n) = some n := by
  have hvalue := natOfDigits?_padded hb hmax width n
  cases hp : padded b width n with
  | nil => exact absurd (List.append_eq_nil_iff.1 hp).2 Nat.toDigits_ne_nil
  | cons d ds => rwa [hp] at hvalue

end

theorem toList_padZero (b width n : Nat) :
    (padZero width (String.ofList (Nat.toDigits b n))).toList = padded b width n := by
  simp [padZero, padded]

theorem isDigit_digitChar {d : Nat} (h : d < 10) : isDigit (Nat.digitChar d) := by
  have hall : ∀ d : Fin 10, isDigit (Nat.digitChar d) := by decide
  exact hall ⟨d, h⟩

theorem isDigit_toDigits (n : Nat) : ∀ c ∈ Nat.toDigits 10 n, isDigit c := by
  intro c hc
  obtain ⟨d, hd, rfl⟩ := mem_toDigits (by decide) hc
  exact isDigit_digitChar hd

theorem toDigits_eq_cons (n : Nat) : ∃ x r, Nat.toDigits 10 n = x :: r ∧ isDigit x := by
  obtain ⟨x, r, h⟩ := List.exists_cons_of_ne_nil (Nat.toDigits_ne_nil (b := 10) (n := n))
  exact ⟨x, r, h, isDigit_toDigits n x (by simp [h])⟩

theorem toDigits_zero {n : Nat} {r : List Char} (h : Nat.toDigits 10 n = '0' :: r) : r = [] := by
  induction n using Nat.strongRecOn generalizing r with
  | ind n ih =>
    by_cases hn : n < 10
    · rw [Nat.toDigits_of_lt_base hn] at h
      exact (List.cons.inj h).2.symm
    · rw [Nat.toDigits_of_base_le (by decide) (by omega)] at h
      cases hhead : Nat.toDigits 10 (n / 10) with
      | nil => exact absurd hhead Nat.toDigits_ne_nil
      | cons x front =>
        rw [hhead] at h
        obtain ⟨rfl, -⟩ := List.cons.inj h
        obtain rfl := ih (n / 10) (by omega) hhead
        have hzero : n / 10 = 0 := by
          have hval := natOfDigits?_toDigits (b := 10) (by decide) (by decide) (n / 10)
          rw [hhead] at hval
          exact (Option.some.inj hval).symm
        omega

theorem digitChar_toNat {c : Char} (h : isDigit c) :
    c.toNat - 48 < 10 ∧ Nat.digitChar (c.toNat - 48) = c := by
  have hchar : ∀ n < 10, Nat.digitChar n = Char.ofNat (n + 48) := by decide
  simp only [isDigit, Bool.and_eq_true, decide_eq_true_eq, Char.le_def, UInt32.le_iff_toNat_le] at h
  obtain ⟨low, high⟩ := h
  have hlow : 48 ≤ c.toNat := low
  have hhigh : c.toNat ≤ 57 := high
  refine ⟨by omega, ?_⟩
  rw [hchar _ (by omega), Nat.sub_add_cancel hlow, Char.ofNat_toNat]

/-- Digits without a zero in front are the numeral of what they spell. -/
theorem toDigits_ofDigitChars {ds : List Char} (ne_nil : ds ≠ []) (digit : ∀ d ∈ ds, isDigit d)
    (unpadded : ds.head? = some '0' → ds = ['0']) :
    Nat.toDigits 10 (Nat.ofDigitChars 10 ds 0) = ds := by
  -- A numeral is split at its last digit, so the induction is from there.
  obtain ⟨r, rfl⟩ : ∃ r : List Char, ds = r.reverse := ⟨ds.reverse, by simp⟩
  induction r with
  | nil => exact absurd rfl ne_nil
  | cons d r ih =>
    rw [List.reverse_cons] at *
    obtain ⟨hlt, hchar⟩ := digitChar_toNat (digit d (by simp))
    have hvalue : Nat.ofDigitChars 10 (r.reverse ++ [d]) 0 =
        10 * Nat.ofDigitChars 10 r.reverse 0 + (d.toNat - 48) := by
      rw [Nat.ofDigitChars_append, Nat.ofDigitChars_cons]
      rfl
    rw [hvalue]
    cases hr : r.reverse with
    | nil =>
      have hzero : Nat.ofDigitChars 10 [] 0 = 0 := rfl
      rw [hzero, Nat.mul_zero, Nat.zero_add, Nat.toDigits_of_lt_base hlt, hchar]
      rfl
    | cons x t =>
      rw [hr] at digit unpadded ih
      have hx : x ≠ '0' := by
        rintro rfl
        have h := unpadded rfl
        simp at h
      have hmore := ih (by simp) (fun c hc => digit c (List.mem_append_left _ hc))
        (fun h => absurd (Option.some.inj h) hx)
      have hpos : Nat.ofDigitChars 10 (x :: t) 0 ≠ 0 := by
        intro h0
        rw [h0] at hmore
        exact hx (List.cons.inj hmore).1.symm
      have hdiv : (10 * Nat.ofDigitChars 10 (x :: t) 0 + (d.toNat - 48)) / 10 =
          Nat.ofDigitChars 10 (x :: t) 0 := by omega
      have hmod : (10 * Nat.ofDigitChars 10 (x :: t) 0 + (d.toNat - 48)) % 10 = d.toNat - 48 := by
        omega
      rw [Nat.toDigits_of_base_le (by decide) (by omega), hdiv, hmod, hmore, hchar]

theorem ofDigitChars_cons (d : Char) (ds : List Char) (s : Nat) :
    Nat.ofDigitChars 10 (d :: ds) s = Nat.ofDigitChars 10 ds (s * 10 + (d.toNat - 48)) := by
  rw [Nat.ofDigitChars_cons, Nat.mul_comm 10 s]
  rfl

theorem le_ofDigitChars (ds : List Char) (s : Nat) : s ≤ Nat.ofDigitChars 10 ds s := by
  rw [Nat.ofDigitChars_eq_ofDigitChars_zero]
  have hpow : s ≤ 10 ^ ds.length * s := Nat.le_mul_of_pos_left s (Nat.pow_pos (by decide))
  omega

def decimal (width n : Nat) : List Char := padded 10 width n

theorem toList_padZero_toString (width n : Nat) :
    (padZero width (toString n)).toList = decimal width n := by
  rw [Nat.toString_eq_ofList_toDigits, toList_padZero, decimal]

theorem isDigit_decimal (width n : Nat) : ∀ c ∈ decimal width n, isDigit c := by
  intro c hc
  obtain ⟨d, hd, rfl⟩ := mem_padded (by decide) hc
  exact isDigit_digitChar hd

theorem length_decimal {width n : Nat} (hpos : 0 < width) (h : n < 10 ^ width) :
    (decimal width n).length = width := length_padded (by decide) hpos h

theorem readNat?_decimal (width n : Nat) : readNat? 10 (decimal width n) = some n :=
  readNat?_padded (by decide) (by decide) width n

end SearchRelay.Numeral
