import SearchRelay.Proofs.Numeral
import SearchRelay.Proofs.Timestamp.Calendar

namespace SearchRelay.Timestamp

open Numeral

/-- A moment of a year of four digits. A leap second comes after the last second of a minute. -/
structure Valid (t : Timestamp) : Prop where
  year : 0 ≤ (civilFromDays t.day).1 ∧ (civilFromDays t.day).1 ≤ 9999
  second : t.second < 86400
  nano : t.nano < 10 ^ 9 ∨ t.nano < 2 * 10 ^ 9 ∧ t.second % 60 = 59

structure OnDate (number : Int) (year month day : Nat) : Prop where
  years : year ≤ 9999
  months : 1 ≤ month ∧ month ≤ 12
  days : 1 ≤ day ∧ day ≤ daysInMonth year month
  counted : daysFromCivil year month day = number

theorem Valid.date {t : Timestamp} (valid : t.Valid) : ∃ year month day : Nat,
    civilFromDays t.day = ((year : Int), month, day) ∧ OnDate t.day year month day := by
  obtain ⟨y, month, day, date, counted, months, days⟩ := civilFromDays_valid t.day
  have hyears := valid.year
  rw [date] at hyears
  obtain ⟨year, rfl⟩ := Int.eq_ofNat_of_zero_le hyears.1
  exact ⟨year, month, day, date, Int.ofNat_le.1 hyears.2, months, days, counted⟩

def EndsDigits (rest : List Char) : Prop := ∀ x ∈ rest.head?, Text.isDigit x = false

theorem endsDigits_cons {x : Char} (h : Text.isDigit x = false) (r : List Char) :
    EndsDigits (x :: r) := by
  rintro y ⟨⟩
  exact h

theorem isBlank_of_digit {x : Char} (h : Text.isDigit x) : Text.isBlank x = false := by
  have hrange : 48 ≤ x.toNat ∧ x.toNat ≤ 57 := by
    simp only [Text.isDigit, Bool.and_eq_true, decide_eq_true_eq] at h
    exact h
  simp [Text.isBlank]
  omega

theorem skipBlanks_cons {x : Char} (h : Text.isBlank x = false) (r : List Char) :
    skipBlanks (x :: r) = x :: r := by
  simp [skipBlanks, h]

theorem literal_cons {c : Char} (h : Text.isBlank c = false) (r : List Char) :
    literal c (c :: r) = .ok r := by
  simp [literal, skipBlanks_cons h]

variable {width n : Nat} {rest : List Char}

theorem decimal_eq_cons (hpos : 0 < width) (h : n < 10 ^ width) :
    ∃ x r, decimal width n = x :: r ∧ Text.isDigit x := by
  have hlength := length_decimal hpos h
  obtain ⟨x, r, hx⟩ := List.exists_cons_of_length_pos (hlength ▸ hpos)
  exact ⟨x, r, hx, isDigit_decimal width n x (by simp [hx])⟩

theorem skipBlanks_decimal (hpos : 0 < width) (h : n < 10 ^ width) :
    skipBlanks (decimal width n ++ rest) = decimal width n ++ rest := by
  obtain ⟨x, r, hx, hdigit⟩ := decimal_eq_cons hpos h
  rw [hx]
  exact skipBlanks_cons (isBlank_of_digit hdigit) _

theorem number_decimal {most : Nat} (hpos : 0 < width) (hmost : width ≤ most) (h : n < 10 ^ width)
    (hsmall : n < Nat.pow 2 63) (hrest : EndsDigits rest) :
    number (some most) (decimal width n ++ rest) = .ok (n, rest) := by
  have hlength := length_decimal hpos h
  have hstop : (rest.take (most - width)).takeWhile Text.isDigit = [] := by
    cases rest with
    | nil => simp
    | cons x r => cases most - width <;> simp [hrest x rfl]
  have htake : ((decimal width n ++ rest).take most).takeWhile Text.isDigit = decimal width n := by
    rw [List.take_append, hlength, List.take_of_length_le (by omega),
      List.takeWhile_append_of_pos (isDigit_decimal width n), hstop, List.append_nil]
  have hread := readNat?_decimal width n
  obtain ⟨x, r, hx, -⟩ := decimal_eq_cons hpos h
  rw [hx, List.cons_append] at htake ⊢
  rw [hx] at hread
  simp only [number, htake]
  simp [hread, hsmall]

theorem bounded_decimal {low high : Nat} (h : low ≤ n ∧ n ≤ high) (hsmall : n < 100)
    (hrest : EndsDigits rest) : bounded low high (decimal 2 n ++ rest) = .ok (n, rest) := by
  have hpow : n < Nat.pow 2 63 := Nat.lt_trans hsmall (by decide)
  have hnumber := number_decimal (by decide) (Nat.le_refl 2) hsmall hpow hrest
  simp only [bounded, skipBlanks_decimal (by decide : 0 < 2) hsmall, hnumber]
  simp [h, bind, Except.bind, pure, Except.pure]

theorem year_decimal (h : n ≤ 9999) (hrest : EndsDigits rest) :
    year (decimal 4 n ++ rest) = .ok ((n : Int), rest) := by
  have hlt : n < 10 ^ 4 := by omega
  have hpow : n < Nat.pow 2 63 := Nat.lt_trans hlt (by decide)
  have hlow : -(2147483648 : Int) ≤ n := by omega
  have hhigh : (n : Int) < 2147483648 := by omega
  have hnumber := number_decimal (by decide) (Nat.le_refl 4) hlt hpow hrest
  obtain ⟨x, r, hx, hdigit⟩ := decimal_eq_cons (by decide : 0 < 4) hlt
  rw [hx, List.cons_append] at hnumber ⊢
  have hminus : x ≠ '-' := by
    rintro rfl
    cases hdigit
  have hplus : x ≠ '+' := by
    rintro rfl
    cases hdigit
  rw [year, skipBlanks_cons (isBlank_of_digit hdigit)]
  split
  · rename_i heq
    exact absurd (List.cons.inj heq).1 hminus
  · rename_i heq
    exact absurd (List.cons.inj heq).1 hplus
  · simp [hnumber, hlow, hhigh, bind, Except.bind, pure, Except.pure]

/-- Among 0, 3, 6 and 9, the least number of digits that hold a fraction of a second. -/
structure Fewest (nano digits : Nat) : Prop where
  offered : digits ∈ [0, 3, 6, 9]
  exact : 10 ^ (9 - digits) ∣ nano
  least : ∀ k ∈ [0, 3, 6, 9], 10 ^ (9 - k) ∣ nano → digits ≤ k

def fractionChars (nano digits : Nat) : List Char :=
  if digits = 0 then [] else '.' :: decimal digits (nano / 10 ^ (9 - digits))

theorem fractionText_fewest {nano : Nat} (h : nano < 10 ^ 9) :
    ∃ digits, Fewest nano digits ∧ (fractionText nano).toList = fractionChars nano digits := by
  have hpoint (width value : Nat) : ("." ++ Text.padZero width (toString value)).toList =
      '.' :: decimal width value := by
    rw [String.toList_append, toList_padZero_toString]
    rfl
  rw [fractionText]
  split
  · exact ⟨0, ⟨by decide, by omega, by simp⟩, rfl⟩
  split
  · exact ⟨3, ⟨by decide, by omega, by simp; omega⟩, hpoint 3 _⟩
  split
  · exact ⟨6, ⟨by decide, by omega, by simp; omega⟩, hpoint 6 _⟩
  · refine ⟨9, ⟨by decide, by omega, by simp; omega⟩, ?_⟩
    rw [hpoint]
    simp [fractionChars]

theorem endsDigits_fraction (nano digits : Nat) :
    EndsDigits (fractionChars nano digits ++ ['Z']) := by
  rw [fractionChars]
  split <;> exact endsDigits_cons rfl _

theorem fraction_chars {nano digits : Nat} (fewest : Fewest nano digits) (h : nano < 10 ^ 9)
    (r : List Char) : fraction (fractionChars nano digits ++ 'Z' :: r) = .ok (nano, 'Z' :: r) := by
  have hdvd := fewest.exact
  by_cases hzero : digits = 0
  · subst hzero
    obtain rfl : nano = 0 := by omega
    rfl
  · have hle : digits ≤ 9 := by
      have hmem := fewest.offered
      simp only [List.mem_cons, List.not_mem_nil, or_false] at hmem
      omega
    have hsplit : 10 ^ digits * 10 ^ (9 - digits) = 10 ^ 9 := by
      rw [← Nat.pow_add, Nat.add_sub_cancel' hle]
    have hvalue : nano / 10 ^ (9 - digits) < 10 ^ digits :=
      Nat.div_lt_of_lt_mul (by rwa [Nat.mul_comm, hsplit])
    have hpow : nano / 10 ^ (9 - digits) < Nat.pow 2 63 :=
      Nat.lt_of_le_of_lt (Nat.div_le_self _ _) (Nat.lt_trans h (by decide))
    have hnumber := number_decimal (Nat.pos_of_ne_zero hzero) hle hvalue hpow
      (endsDigits_cons rfl r : EndsDigits ('Z' :: r))
    have hlength := length_decimal (Nat.pos_of_ne_zero hzero) hvalue
    have hback : nano / 10 ^ (9 - digits) * 10 ^ (9 - digits) = nano := Nat.div_mul_cancel hdvd
    have hdrop : ('Z' :: r).dropWhile Text.isDigit = 'Z' :: r := rfl
    simp only [fractionChars, if_neg hzero, List.cons_append, fraction, hnumber, bind, Except.bind,
      List.length_append, hlength, Nat.add_sub_cancel, hdrop]
    exact congrArg (fun n => Except.ok (n, 'Z' :: r)) hback

def charsOf (year month day second leap nano digits : Nat) : List Char :=
  decimal 4 year ++ '-' :: (decimal 2 month ++ '-' :: (decimal 2 day ++ 'T' ::
    (decimal 2 (second / 3600) ++ ':' :: (decimal 2 (second / 60 % 60) ++ ':' ::
      (decimal 2 (second % 60 + leap) ++ (fractionChars nano digits ++ ['Z']))))))

theorem toList_toText {t : Timestamp} {year month day : Nat}
    (date : civilFromDays t.day = ((year : Int), month, day)) (hyear : year ≤ 9999)
    (hnano : t.nano < 2 * 10 ^ 9) : ∃ digits, Fewest (t.nano % 10 ^ 9) digits ∧ t.toText.toList =
      charsOf year month day t.second (t.nano / 10 ^ 9) (t.nano % 10 ^ 9) digits := by
  obtain ⟨digits, fewest, hfraction⟩ :=
    fractionText_fewest (Nat.mod_lt t.nano (by decide : 10 ^ 9 > 0))
  refine ⟨digits, fewest, ?_⟩
  have hleap : (if 1000000000 ≤ t.nano then (1, t.nano - 1000000000) else (0, t.nano)) =
      (t.nano / 10 ^ 9, t.nano % 10 ^ 9) := by
    split <;> ext <;> simp <;> omega
  have hyearText : yearText year = Text.padZero 4 (toString year) := by
    rw [yearText, if_pos (by omega)]
    rfl
  simp only [toText, date, hleap, hyearText, twoDigits, String.toList_append,
    toList_padZero_toString, hfraction]
  simp [charsOf]

theorem daysInMonth_le (year : Int) (month : Nat) : daysInMonth year month ≤ 31 := by
  rw [daysInMonth]
  repeat' split
  all_goals decide

/-- The days of years with four digits are far from the ends of the calendar. -/
theorem OnDate.inside {number : Int} {year month day : Nat} (date : OnDate number year month day) :
    ¬ (number < daysFromCivil minYear 1 1 ∨ daysFromCivil maxYear 12 31 < number) := by
  have hyear := date.years
  have hday := date.days.2
  have hshort := daysInMonth_le year month
  have hmin : daysFromCivil minYear 1 1 < -1000000 := by decide
  have hmax : 4000000 < daysFromCivil maxYear 12 31 := by decide
  have hmonth : 0 ≤ ((month : Int) + 9).emod 12 ∧ ((month : Int) + 9).emod 12 < 12 := by
    have hemod : ((month : Int) + 9).emod 12 = ((month : Int) + 9) % 12 := rfl
    omega
  generalize hmp : ((month : Int) + 9).emod 12 = mp at hmonth
  have hrange : -1000000 ≤ daysFromCivil year month day ∧
      daysFromCivil year month day ≤ 4000000 := by
    simp (disch := decide) only [daysFromCivil, hmp, Int.fdiv_eq_ediv_of_nonneg]
    split <;> omega
  rw [← date.counted]
  omega

theorem ofLocal_eq {t : Timestamp} (valid : t.Valid) {year month day : Nat}
    (date : OnDate t.day year month day) :
    ofLocal year month day (t.second / 3600) (t.second / 60 % 60)
      (t.second % 60 + t.nano / 10 ^ 9) (t.nano % 10 ^ 9) 0 = .ok t := by
  have hsecond := valid.second
  have hyear := date.years
  have hday := date.days.2
  have hdate :
      ¬ (day > daysInMonth year month ∨ (year : Int) < minYear ∨ maxYear < (year : Int)) := by
    simp only [minYear, maxYear]
    omega
  -- A leap second is shown as the sixtieth of its minute.
  have hclock : (if t.second % 60 + t.nano / 10 ^ 9 = 60 then (59, t.nano % 10 ^ 9 + 1000000000)
      else (t.second % 60 + t.nano / 10 ^ 9, t.nano % 10 ^ 9)) = (t.second % 60, t.nano) := by
    have hnano := valid.nano
    split <;> ext <;> simp <;> omega
  have htotal :
      ((t.second / 3600 * 3600 + t.second / 60 % 60 * 60 + t.second % 60 : Nat) : Int) - 0 =
        t.second := by omega
  have hfdiv : (t.second : Int).fdiv 86400 = 0 := by
    rw [Int.fdiv_eq_ediv_of_nonneg _ (by decide)]
    omega
  have hfmod : (t.second : Int).fmod 86400 = t.second := by
    rw [Int.fmod_eq_emod_of_nonneg _ (by decide)]
    omega
  have hoffset : ¬ ((0 : Int) ≤ -86400 ∨ (86400 : Int) ≤ 0) := by decide
  simp only [ofLocal, if_neg hdate, if_neg hoffset, hclock, htotal, hfdiv, hfmod, Int.add_zero,
    date.counted, if_neg date.inside, Int.toNat_natCast]

/-- A moment is read back from its text. -/
theorem parse_toText {t : Timestamp} (valid : t.Valid) : parse t.toText = .ok t := by
  obtain ⟨year, month, day, shown, date⟩ := valid.date
  have hclock := valid.second
  have hnano := valid.nano
  have hday := date.days
  have hdays := daysInMonth_le year month
  have hmonth := date.months
  obtain ⟨digits, fewest, hchars⟩ := toList_toText shown date.years (by omega)
  have hdash (r : List Char) : EndsDigits ('-' :: r) := endsDigits_cons rfl r
  have htee (r : List Char) : EndsDigits ('T' :: r) := endsDigits_cons rfl r
  have hcolon (r : List Char) : EndsDigits (':' :: r) := endsDigits_cons rfl r
  have readYear (r : List Char) := year_decimal date.years (hdash r)
  have readMonth (r : List Char) := bounded_decimal hmonth (by omega) (hdash r)
  have readDay (r : List Char) : bounded 1 31 (decimal 2 day ++ 'T' :: r) = .ok (day, 'T' :: r) :=
    bounded_decimal (by omega) (by omega) (htee r)
  have readHour (r : List Char) : bounded 0 23 (decimal 2 (t.second / 3600) ++ ':' :: r) =
      .ok (t.second / 3600, ':' :: r) := bounded_decimal (by omega) (by omega) (hcolon r)
  have readMinute (r : List Char) : bounded 0 59 (decimal 2 (t.second / 60 % 60) ++ ':' :: r) =
      .ok (t.second / 60 % 60, ':' :: r) := bounded_decimal (by omega) (by omega) (hcolon r)
  have hsecond : 0 ≤ t.second % 60 + t.nano / 10 ^ 9 ∧
      t.second % 60 + t.nano / 10 ^ 9 ≤ 60 := by omega
  have readSecond := bounded_decimal hsecond (by omega)
    (endsDigits_fraction (t.nano % 10 ^ 9) digits)
  have readFraction := fraction_chars fewest (by omega) []
  have zone : offset ['Z'] = .ok (0, []) := rfl
  simp only [parse, hchars, charsOf, readYear, bind, Except.bind, literal_cons (c := '-') rfl,
    literal_cons (c := ':') rfl, readMonth, readDay, pure, Except.pure, readHour, readMinute,
    readSecond, readFraction, zone]
  exact ofLocal_eq valid date

/-- A leap day, with as many digits as there are milliseconds. -/
example : toText ⟨19782, 43200, 5000000⟩ = "2024-02-29T12:00:00.005Z" := by rfl

end SearchRelay.Timestamp
