import SearchRelay.Text.Blank
import SearchRelay.Text.Numeral

namespace SearchRelay

structure Timestamp where
  /-- Days since 1970-01-01. -/
  day : Int
  second : Nat
  /-- Nanoseconds; a leap second goes on counting from 10 ^ 9. -/
  nano : Nat
  deriving DecidableEq, Repr

namespace Timestamp

def daysFromCivil (year : Int) (month day : Nat) : Int :=
  let y := if month ≤ 2 then year - 1 else year
  let era := y.fdiv 400
  let yoe := y - era * 400
  let mp : Int := ((month : Int) + 9).emod 12
  let doy := (153 * mp + 2).fdiv 5 + day - 1
  let doe := yoe * 365 + yoe.fdiv 4 - yoe.fdiv 100 + doy
  era * 146097 + doe - 719468

def civilFromDays (days : Int) : Int × Nat × Nat :=
  let z := days + 719468
  let era := z.fdiv 146097
  let doe := z - era * 146097
  let yoe := (doe - doe.fdiv 1460 + doe.fdiv 36524 - doe.fdiv 146096).fdiv 365
  let doy := doe - (365 * yoe + yoe.fdiv 4 - yoe.fdiv 100)
  let mp := (5 * doy + 2).fdiv 153
  let day := doy - (153 * mp + 2).fdiv 5 + 1
  let month := if mp < 10 then mp + 3 else mp - 9
  (yoe + era * 400 + (if month ≤ 2 then 1 else 0), month.toNat, day.toNat)

def isLeapYear (y : Int) : Bool := y % 4 == 0 && (y % 100 != 0 || y % 400 == 0)

def daysInMonth (y : Int) (m : Nat) : Nat :=
  if m = 2 then (if isLeapYear y then 29 else 28)
  else if m = 4 ∨ m = 6 ∨ m = 9 ∨ m = 11 then 30 else 31

abbrev minYear : Int := -262143
abbrev maxYear : Int := 262142

def twoDigits (n : Nat) : String := Text.padZero 2 (toString n)

/-- Years of other than four digits have a sign. -/
def yearText (y : Int) : String :=
  let digits := Text.padZero 4 (toString y.natAbs)
  if 0 ≤ y ∧ y ≤ 9999 then digits else (if y < 0 then "-" else "+") ++ digits

/-- A fraction of a second in the fewest of 0, 3, 6 and 9 digits. -/
def fractionText (nano : Nat) : String :=
  if nano = 0 then ""
  else if nano % 1000000 = 0 then "." ++ Text.padZero 3 (toString (nano / 1000000))
  else if nano % 1000 = 0 then "." ++ Text.padZero 6 (toString (nano / 1000))
  else "." ++ Text.padZero 9 (toString nano)

def toText (t : Timestamp) : String :=
  let (year, month, day) := civilFromDays t.day
  let (leap, nano) := if 1000000000 ≤ t.nano then (1, t.nano - 1000000000) else (0, t.nano)
  yearText year ++ "-" ++ twoDigits month ++ "-" ++ twoDigits day ++ "T" ++
    twoDigits (t.second / 3600) ++ ":" ++ twoDigits (t.second / 60 % 60) ++ ":" ++
    twoDigits (t.second % 60 + leap) ++ fractionText nano ++ "Z"

inductive ParseError
  | outOfRange
  | impossible
  | invalid
  | tooShort
  | tooLong
  deriving DecidableEq, Repr

namespace ParseError

def message : ParseError → String
  | outOfRange => "input is out of range"
  | impossible => "no possible date and time matching input"
  | invalid => "input contains invalid characters"
  | tooShort => "premature end of input"
  | tooLong => "trailing input"

end ParseError

def skipBlanks (cs : List Char) : List Char := cs.dropWhile Text.isBlank

def number (width : Option Nat) (cs : List Char) : Except ParseError (Nat × List Char) :=
  let ds := (match width with | some w => cs.take w | none => cs).takeWhile Text.isDigit
  match cs, ds with
  | [], _ => .error .tooShort
  | _, [] => .error .invalid
  | _, ds =>
    let n := (Text.readNat? 10 ds).getD 0
    if n < Nat.pow 2 63 then .ok (n, cs.drop ds.length) else .error .outOfRange

def bounded (low high : Nat) (cs : List Char) : Except ParseError (Nat × List Char) := do
  let (n, r) ← number (some 2) (skipBlanks cs)
  if low ≤ n ∧ n ≤ high then pure (n, r) else .error .outOfRange

/-- A year: four digits, or a sign and any number of digits. -/
def year (cs : List Char) : Except ParseError (Int × List Char) := do
  let (y, r) ← (
    match skipBlanks cs with
    | '-' :: r => do
      let (n, r) ← number none r
      pure (-(n : Int), r)
    | '+' :: r => do
      let (n, r) ← number none r
      pure ((n : Int), r)
    | r => do
      let (n, r) ← number (some 4) r
      pure ((n : Int), r))
  if -(Nat.pow 2 31 : Int) ≤ y ∧ y < Nat.pow 2 31 then pure (y, r) else .error .outOfRange

def literal (c : Char) (cs : List Char) : Except ParseError (List Char) :=
  match skipBlanks cs with
  | [] => .error .tooShort
  | x :: r => if x = c then .ok r else .error .invalid

/-- A fraction of a second; digits after the ninth are dropped. -/
def fraction (cs : List Char) : Except ParseError (Nat × List Char) :=
  match cs with
  | '.' :: r => do
    let (n, s) ← number (some 9) r
    pure (n * Nat.pow 10 (9 - (r.length - s.length)), s.dropWhile Text.isDigit)
  | r => .ok (0, r)

def twoOf : List Char → Option (Char × Char × List Char)
  | a :: b :: r => some (a, b, r)
  | _ => none

def pairValue (a b : Char) : Nat := (a.toNat - 48) * 10 + (b.toNat - 48)

def offsetDigits (cs : List Char) : Except ParseError (Nat × List Char) :=
  match twoOf cs with
  | none => .error (if octetsBelowTwo cs then .tooShort else .invalid)
  | some (a, b, r) =>
    if !(Text.isDigit a && Text.isDigit b) then .error .invalid
    else
      let r := r.dropWhile fun c => c == ':' || Text.isBlank c
      match twoOf r with
      | none => .error (if octetsBelowTwo r then .tooShort else .invalid)
      | some (c, d, s) =>
        if !(Text.isDigit c && Text.isDigit d) then .error .invalid
        else if '5' < c then .error .outOfRange
        else .ok (pairValue a b * 3600 + pairValue c d * 60, s)
where
  octetsBelowTwo (cs : List Char) : Bool := (String.ofList cs).utf8ByteSize < 2

def offset (cs : List Char) : Except ParseError (Int × List Char) :=
  let cs := skipBlanks cs
  if (cs.take 3).map Char.toUpper = ['U', 'T', 'C'] then .ok (0, cs.drop 3)
  else
    match cs with
    | [] => .error .tooShort
    | 'Z' :: r | 'z' :: r => .ok (0, r)
    | '+' :: r => do
      let (n, r) ← offsetDigits r
      pure ((n : Int), r)
    | '-' :: r | '\u2212' :: r => do
      let (n, r) ← offsetDigits r
      pure (-(n : Int), r)
    | _ => .error .invalid

/-- The moment at which clocks with an offset from UTC show a date and a time. -/
def ofLocal (year : Int) (month day hour minute second nano : Nat) (offset : Int) :
    Except ParseError Timestamp :=
  if day > daysInMonth year month ∨ year < minYear ∨ maxYear < year then .error .outOfRange
  else if offset ≤ -86400 ∨ 86400 ≤ offset then .error .outOfRange
  else
    let (second, nano) := if second = 60 then (59, nano + 1000000000) else (second, nano)
    let total : Int := (hour * 3600 + minute * 60 + second : Nat) - offset
    let days := daysFromCivil year month day + total.fdiv 86400
    if days < daysFromCivil minYear 1 1 ∨ daysFromCivil maxYear 12 31 < days then
      .error .impossible
    else .ok ⟨days, (total.fmod 86400).toNat, nano⟩

def parse (s : String) : Except ParseError Timestamp := do
  let (y, r) ← year s.toList
  let (mo, r) ← bounded 1 12 (← literal '-' r)
  let (d, r) ← bounded 1 31 (← literal '-' r)
  let r ← (
    match r with
    | 't' :: r | 'T' :: r | ' ' :: r => pure r
    | [] => .error .tooShort
    | _ => .error .invalid)
  let (h, r) ← bounded 0 23 r
  let (mi, r) ← bounded 0 59 (← literal ':' r)
  let (se, r) ← bounded 0 60 (← literal ':' r)
  let (nano, r) ← fraction r
  let (off, r) ← offset r
  if (skipBlanks r).isEmpty then ofLocal y mo d h mi se nano off else .error .tooLong

end Timestamp

end SearchRelay
