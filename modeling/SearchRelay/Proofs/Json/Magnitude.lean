import SearchRelay.Proofs.Json.Spelling

namespace SearchRelay.Json

def EndsDigits (rest : List Char) : Prop := ∀ x ∈ rest.head?, Text.isDigit x = false

theorem EndsNumber.endsDigits {rest : List Char} (h : EndsNumber rest) : EndsDigits rest :=
  fun x hx => (h x hx).1

theorem Exponent.endsDigits (x : Option Exponent) {rest : List Char} (h : EndsNumber rest) :
    EndsDigits (chars x ++ rest) := by
  cases x with
  | none => exact h.endsDigits
  | some x =>
    rintro y ⟨⟩
    rcases x.isLetter with hx | hx <;> rw [hx] <;> rfl

theorem NumberText.endsDigits (fraction : Option Digits) (x : Option Exponent) {rest : List Char}
    (h : EndsNumber rest) : EndsDigits (tail fraction x ++ rest) := by
  cases fraction with
  | none => exact Exponent.endsDigits x h
  | some ds =>
    rintro y ⟨⟩
    rfl

namespace Cursor

variable {α β : Type} {rest : List Char}

/-- A reader makes the same of a text, or refuses it, whatever stands behind it. -/
def Settles (read : Cursor → Except Error (α × Cursor)) (text : List Char) (r : Option α) : Prop :=
  ∀ rest, EndsNumber rest → ∀ p, Comes (read ⟨text ++ rest, p⟩) rest r

theorem digits_open (ds : Digits) :
    ∃ d r, ds.chars = d :: r ∧ Text.isDigit d ∧ d ≠ '-' ∧ d ≠ '+' := by
  obtain ⟨d, r, hds⟩ := List.exists_cons_of_ne_nil ds.ne_nil
  have hdigit : Text.isDigit d := ds.digit d (by simp [hds])
  refine ⟨d, r, hds, hdigit, ?_, ?_⟩ <;>
    · rintro rfl
      cases hdigit

theorem atDigit_cons {d : Char} (h : Text.isDigit d) (r : List Char) (p : Place) :
    atDigit ⟨d :: r, p⟩ = true := h

variable {negative : Bool} {significand : Nat} {e : Int}

theorem float_comes (negative : Bool) (significand : Nat) (e : Int) : ∃ r : Option Binary64,
    ∀ rest p, Comes (float negative significand e ⟨rest, p⟩) rest (r.map .float) := by
  unfold float
  cases scale 4 (Binary64.ofDecimal false significand 0) e with
  | none => exact ⟨none, fun _ _ => ⟨_, rfl⟩⟩
  | some x => exact ⟨some _, fun _ p => ⟨p, rfl⟩⟩

theorem exponentPart_none (h : EndsNumber rest) (p : Place) :
    exponentPart negative significand e ⟨rest, p⟩ = float negative significand e ⟨rest, p⟩ := by
  cases rest with
  | nil => rfl
  | cons x r =>
    obtain ⟨-, -, hx⟩ := h x rfl
    simp [exponentPart, hx]

theorem exponentPart_some (x : Exponent) (rest : List Char) (p : Place) :
    exponentPart negative significand e ⟨Exponent.chars (some x) ++ rest, p⟩ =
      let c : Cursor := ⟨x.digits.chars ++ rest, (p.after x.letter).past x.sign⟩
      (gatherExponent c.digits.1 0).elim
        (if significand ≠ 0 ∧ x.sign ≠ ['-'] then
          (advanceBy (exponentReach c.digits.1 0) c).fail .numberOutOfRange
        else .ok (.float (Binary64.zero negative), c.digits.2))
        fun n => float negative significand
          (clampExponent (if x.sign = ['-'] then e - n else e + n)) c.digits.2 := by
  obtain ⟨letter, sign, ds, isLetter, isSign⟩ := x
  obtain ⟨d, r, hds, hdigit, hminus, hplus⟩ := digits_open ds
  rcases isSign with rfl | rfl | rfl
  all_goals
    simp [exponentPart, Exponent.chars, isLetter, hds, atDigit_cons hdigit, hminus, hplus]
    split
    all_goals
      rename_i hn
      rw [hn]
      rfl

theorem exponentPart_settles (negative : Bool) (significand : Nat) (e : Int)
    (x : Option Exponent) : ∃ r : Option Binary64,
      Settles (exponentPart negative significand e) (Exponent.chars x) (r.map .float) := by
  cases x with
  | none =>
    obtain ⟨r, hr⟩ := float_comes negative significand e
    exact ⟨r, fun rest h p => exponentPart_none h p ▸ hr rest p⟩
  | some x =>
    have hdigits (rest : List Char) (h : EndsNumber rest) (p : Place) :=
      digits_append x.digits.chars x.digits.digit h.endsDigits p
    cases hn : gatherExponent x.digits.chars 0 with
    | some n =>
      obtain ⟨r, hr⟩ := float_comes negative significand
        (clampExponent (if x.sign = ['-'] then e - n else e + n))
      refine ⟨r, fun rest h p => ?_⟩
      simp only [exponentPart_some, hdigits rest h, hn, Option.elim_some]
      exact hr rest _
    | none =>
      by_cases hlarge : significand ≠ 0 ∧ x.sign ≠ ['-']
      · refine ⟨none, fun rest h p => ?_⟩
        simp only [exponentPart_some, hdigits rest h, hn, Option.elim_none, if_pos hlarge]
        exact ⟨_, rfl⟩
      · refine ⟨some (.zero negative), fun rest h p => ?_⟩
        simp only [exponentPart_some, hdigits rest h, hn, Option.elim_none, if_neg hlarge]
        exact ⟨_, rfl⟩

theorem fractionPart_settles (negative : Bool) (significand e : Nat) (ds : Digits)
    (x : Option Exponent) : ∃ r : Option Binary64,
      Settles (fractionPart negative significand e) (NumberText.tail (some ds) x)
        (r.map .float) := by
  obtain ⟨r, hr⟩ := exponentPart_settles negative (gather ds.chars significand).1
    ((e : Int) - (ds.chars.length - (gather ds.chars significand).2.length : Nat)) x
  refine ⟨r, fun rest h p => ?_⟩
  have hdigits := digits_append ds.chars ds.digit (Exponent.endsDigits x h) (p.after '.')
  have hempty : ds.chars.isEmpty = false := by simpa using ds.ne_nil
  simp only [fractionPart, NumberText.tail, List.cons_append, List.append_assoc, advance_cons,
    hdigits, hempty]
  exact hr rest h _

theorem whole_opens (n : NumberText) (h : EndsNumber rest) :
    ∃ x r, n.whole.chars = x :: r ∧ Text.isDigit x ∧ ∀ p, (x == '0' && (Cursor.advance
      ⟨x :: (r ++ (NumberText.tail n.fraction n.exponent ++ rest)), p⟩).atDigit) = false := by
  obtain ⟨x, r, hx⟩ := List.exists_cons_of_ne_nil n.whole.ne_nil
  refine ⟨x, r, hx, n.whole.digit x (by simp [hx]), fun p => ?_⟩
  by_cases h0 : x = '0'
  · have hr : r = [] := by
      have hunpadded := n.unpadded (by simp [hx, h0])
      rw [hx] at hunpadded
      exact (List.cons.inj hunpadded).2
    have hends := NumberText.endsDigits n.fraction n.exponent h
    subst hr
    cases htail : NumberText.tail n.fraction n.exponent ++ rest with
    | nil => simp [atDigit]
    | cons y t =>
      rw [htail] at hends
      simpa [h0, atDigit, htail] using hends y rfl
  · simp [h0]

/-- Behind its sign a number goes on with what its point or its exponent asks for. -/
theorem number_magnitude (n : NumberText) (h : EndsNumber rest) (p : Place) :
    number negative ⟨n.magnitude ++ rest, p⟩ =
      let (s, left) := gather n.whole.chars 0
      let d : Cursor := ⟨NumberText.tail n.fraction n.exponent ++ rest, p.past n.whole.chars⟩
      match d.rest with
      | '.' :: _ => fractionPart negative s left.length d
      | 'e' :: _ | 'E' :: _ => exponentPart negative s left.length d
      | _ =>
        if !left.isEmpty then float negative s left.length d
        else if !negative then .ok (.integer s, d)
        else if s = 0 ∨ Nat.pow 2 63 < s then
          .ok (.float (Binary64.ofDecimal false s 0).neg, d)
        else .ok (.integer (-(s : Int)), d) := by
  have hends := NumberText.endsDigits n.fraction n.exponent h
  have hdigits := digits_append n.whole.chars n.whole.digit hends p
  obtain ⟨x, r, hx, hdigit, hzero⟩ := whole_opens n h
  rw [hx, List.cons_append] at hdigits
  simp only [NumberText.magnitude, hx, List.cons_append, List.append_assoc, number, hdigit, hzero]
  simp only [hdigits]
  rfl

theorem gather_large (ds : List Char) (s : Nat) (hs : s < Nat.pow 2 64)
    (h : Nat.pow 2 64 ≤ Nat.ofDigitChars 10 ds s) : (gather ds s).2 ≠ [] := by
  induction ds generalizing s with
  | nil => exact absurd h (Nat.not_le_of_lt hs)
  | cons d ds ih =>
    rw [gather]
    split
    · rename_i hlt
      exact ih _ hlt (Numeral.ofDigitChars_cons d ds s ▸ h)
    · simp

/-- Every number is a numeral that 64 bits hold, or else it is read as a float. -/
theorem number_cases (n : NumberText) : (∃ v < Nat.pow 2 64, n.magnitude = Nat.toDigits 10 v) ∨
    ∀ negative, ∃ r : Option Binary64, Settles (number negative) n.magnitude (r.map .float) := by
  have settles {negative : Bool} {r : Option Binary64}
      {outcome : List Char → Place → Except Error (Number × Cursor)}
      (hnumber : ∀ rest, EndsNumber rest → ∀ p, number negative ⟨n.magnitude ++ rest, p⟩ =
        outcome rest (p.past n.whole.chars))
      (h : ∀ rest, EndsNumber rest → ∀ p, Comes (outcome rest p) rest (r.map .float)) :
      ∃ r : Option Binary64, Settles (number negative) n.magnitude (r.map .float) :=
    ⟨r, fun rest hrest p => hnumber rest hrest p ▸ h rest hrest _⟩
  obtain ⟨negative, whole, fraction, exponent, unpadded⟩ := n
  cases fraction with
  | some ds =>
    refine .inr fun negative => ?_
    obtain ⟨r, hr⟩ := fractionPart_settles negative (gather whole.chars 0).1
      (gather whole.chars 0).2.length ds exponent
    refine settles (fun rest h p => ?_) hr
    rw [number_magnitude _ h]
    rfl
  | none =>
    cases exponent with
    | some x =>
      refine .inr fun negative => ?_
      obtain ⟨r, hr⟩ := exponentPart_settles negative (gather whole.chars 0).1
        (gather whole.chars 0).2.length (some x)
      refine settles (fun rest h p => ?_) hr
      rw [number_magnitude _ h]
      obtain ⟨letter, sign, ds, rfl | rfl, isSign⟩ := x <;> rfl
    | none =>
      have hchars := Numeral.toDigits_ofDigitChars whole.ne_nil whole.digit unpadded
      -- Without a point and an exponent the size alone decides.
      by_cases hlarge : Nat.pow 2 64 ≤ Nat.ofDigitChars 10 whole.chars 0
      · refine .inr fun negative => ?_
        have hleft := gather_large whole.chars 0 (by decide) hlarge
        obtain ⟨r, hr⟩ := float_comes negative (gather whole.chars 0).1
          (gather whole.chars 0).2.length
        refine settles (fun rest h p => ?_) fun rest _ => hr rest
        rw [number_magnitude _ h]
        simp only [NumberText.tail, Exponent.chars, List.nil_append]
        cases rest with
        | nil => simp [hleft]
        | cons y rest =>
          obtain ⟨-, hdot, he, hE⟩ := h y rfl
          split <;> simp_all
      · refine .inl ⟨_, Nat.lt_of_not_le hlarge, ?_⟩
        rw [hchars]
        exact List.append_nil _

/-- What a numeral is read as does not depend on what stands behind it. -/
theorem number_settles (negative : Bool) (n : NumberText) :
    ∃ r, Settles (number negative) n.magnitude r := by
  rcases number_cases n with ⟨v, hv, hchars⟩ | h
  · rw [hchars]
    cases negative with
    | false =>
      refine ⟨some (.integer v), fun rest hrest p => ?_⟩
      rw [number_digits false hv hrest]
      exact ⟨_, rfl⟩
    | true =>
      by_cases hfloat : v = 0 ∨ Nat.pow 2 63 < v
      · refine ⟨some (.float (Binary64.ofDecimal false v 0).neg), fun rest hrest p => ?_⟩
        rw [number_digits true hv hrest]
        exact ⟨_, by simp [hfloat]; rfl⟩
      · refine ⟨some (.integer (-(v : Int))), fun rest hrest p => ?_⟩
        rw [number_digits true hv hrest]
        exact ⟨_, by simp [hfloat]; rfl⟩
  · obtain ⟨r, hr⟩ := h negative
    exact ⟨_, hr⟩

theorem skipExponent_chars (x : Option Exponent) (h : EndsNumber rest) (p : Place) :
    ∃ q, skipExponent ⟨Exponent.chars x ++ rest, p⟩ = .ok ⟨rest, q⟩ := by
  cases x with
  | none =>
    refine ⟨p, ?_⟩
    cases rest with
    | nil => rfl
    | cons y rest =>
      obtain ⟨-, -, hy⟩ := h y rfl
      simp [Exponent.chars, skipExponent, hy]
  | some x =>
    obtain ⟨letter, sign, ds, isLetter, isSign⟩ := x
    have hdigits (q : Place) := digits_append ds.chars ds.digit h.endsDigits q
    obtain ⟨d, r, hds, hdigit, hminus, hplus⟩ := digits_open ds
    refine ⟨((p.after letter).past sign).past ds.chars, ?_⟩
    rw [hds, List.cons_append] at hdigits
    rcases isSign with rfl | rfl | rfl <;>
      simp [skipExponent, Exponent.chars, isLetter, hds, atDigit_cons hdigit, hdigits, hminus,
        hplus]

def skipFraction (d : Cursor) : Except Error Cursor :=
  match d.rest with
  | '.' :: _ =>
    let e := d.advance
    if e.atDigit then skipExponent e.digits.2 else e.refuse .invalidNumber
  | _ => skipExponent d

theorem skipNumber_magnitude (n : NumberText) (h : EndsNumber rest) (p : Place) :
    ∃ q, skipNumber ⟨n.magnitude ++ rest, p⟩ = .ok ⟨rest, q⟩ := by
  have hends := NumberText.endsDigits n.fraction n.exponent h
  have hdigits := digits_append n.whole.chars n.whole.digit hends p
  obtain ⟨x, r, hx, hdigit, hzero⟩ := whole_opens n h
  have hskip : skipNumber ⟨n.magnitude ++ rest, p⟩ =
      skipFraction ⟨NumberText.tail n.fraction n.exponent ++ rest, p.past n.whole.chars⟩ := by
    rw [hx, List.cons_append] at hdigits
    simp only [NumberText.magnitude, hx, List.cons_append, List.append_assoc, skipNumber, hdigit,
      hzero]
    simp only [hdigits]
    rfl
  rw [hskip]
  obtain ⟨negative, whole, fraction, exponent, unpadded⟩ := n
  cases fraction with
  | some ds =>
    have hat : (Cursor.mk (ds.chars ++ (Exponent.chars exponent ++ rest))
        ((p.past whole.chars).after '.')).atDigit := by
      obtain ⟨d, r, hds, hdigit, -⟩ := digits_open ds
      rw [hds]
      exact atDigit_cons hdigit _ _
    have hfraction := digits_append ds.chars ds.digit (Exponent.endsDigits exponent h)
      ((p.past whole.chars).after '.')
    simp only [skipFraction, NumberText.tail, List.cons_append, List.append_assoc, advance_cons,
      hat, hfraction]
    exact skipExponent_chars exponent h _
  | none =>
    simp only [skipFraction, NumberText.tail]
    split
    · rename_i r hpoint
      cases exponent with
      | none => exact absurd rfl (h '.' (by simp [show rest = '.' :: r from hpoint])).2.1
      | some x =>
        have hletter : x.letter = '.' := (List.cons.inj hpoint).1
        rcases x.isLetter with hx | hx <;> rw [hx] at hletter <;> cases hletter
    · exact skipExponent_chars exponent h _

end Cursor

end SearchRelay.Json
