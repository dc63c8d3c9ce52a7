import SearchRelay.Proofs.Json.Scanning
import SearchRelay.Proofs.Numeral

namespace SearchRelay.Json

def EndsNumber (rest : List Char) : Prop :=
  ∀ x ∈ rest.head?, Text.isDigit x = false ∧ x ≠ '.' ∧ x ≠ 'e' ∧ x ≠ 'E'

namespace Cursor

variable {rest : List Char}

theorem digits_append (ds : List Char) (h : ∀ d ∈ ds, Text.isDigit d)
    (hrest : ∀ x ∈ rest.head?, Text.isDigit x = false) (p : Place) :
    digits ⟨ds ++ rest, p⟩ = (ds, ⟨rest, p.past ds⟩) := by
  have hstop : rest.takeWhile Text.isDigit = [] := by
    cases rest with
    | nil => rfl
    | cons x r => simp [List.takeWhile, hrest x rfl]
  have htake : (ds ++ rest).takeWhile Text.isDigit = ds := by
    rw [List.takeWhile_append_of_pos h, hstop, List.append_nil]
  simp only [digits, htake, advanceBy_append]

theorem gather_eq (ds : List Char) (s : Nat) (h : Nat.ofDigitChars 10 ds s < Nat.pow 2 64) :
    gather ds s = (Nat.ofDigitChars 10 ds s, []) := by
  induction ds generalizing s with
  | nil => rfl
  | cons d ds ih =>
    rw [Numeral.ofDigitChars_cons] at h ⊢
    have hle := Numeral.le_ofDigitChars ds (s * 10 + (d.toNat - 48))
    rw [gather, if_pos (Nat.lt_of_le_of_lt hle h), ih _ h]

/-- Behind its sign, an integer is read up to its end. -/
theorem number_digits (negative : Bool) {n : Nat} (hn : n < Nat.pow 2 64) (hrest : EndsNumber rest)
    (p : Place) : number negative ⟨Nat.toDigits 10 n ++ rest, p⟩ =
      let d : Cursor := ⟨rest, p.past (Nat.toDigits 10 n)⟩
      if !negative then .ok (.integer n, d)
      else if n = 0 ∨ Nat.pow 2 63 < n then .ok (.float (Binary64.ofDecimal false n 0).neg, d)
      else .ok (.integer (-(n : Int)), d) := by
  have hall := Numeral.isDigit_toDigits n
  have hdigits := digits_append (Nat.toDigits 10 n) hall (fun x hx => (hrest x hx).1) p
  have hvalue := Nat.ofDigitChars_ten_toDigits (n := n)
  have hgather := gather_eq (Nat.toDigits 10 n) 0 (by rwa [hvalue])
  rw [hvalue] at hgather
  cases hds : Nat.toDigits 10 n with
  | nil => exact absurd hds Nat.toDigits_ne_nil
  | cons x r =>
    have hx : Text.isDigit x := hall x (by simp [hds])
    have hzero : (x == '0' && (Cursor.advance ⟨x :: r ++ rest, p⟩).atDigit) = false := by
      by_cases h0 : x = '0'
      · subst h0
        obtain rfl := Numeral.toDigits_zero hds
        cases rest with
        | nil => rfl
        | cons y rest => simpa [atDigit] using (hrest y rfl).1
      · simp [h0]
    rw [hds] at hdigits hgather
    simp only [List.cons_append] at hdigits hzero ⊢
    simp only [number, hx, hzero, hdigits, hgather]
    cases hrest' : rest with
    | nil => simp
    | cons y rest =>
      obtain ⟨-, hdot, he, hE⟩ := hrest y (by simp [hrest'])
      split <;> simp_all

end Cursor

end SearchRelay.Json
