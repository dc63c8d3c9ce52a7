import SearchRelay.Text.Numeral

namespace SearchRelay.Text

structure Decimal where
  negative : Bool
  digits : Nat
  exponent : Int
  deriving DecidableEq, Repr

namespace Decimal

def exponent? : List Char → Option Int
  | [] => some 0
  | 'e' :: r | 'E' :: r =>
    match r with
    | '-' :: ds => (readNat? 10 ds).map fun n => -(n : Int)
    | '+' :: ds => (readNat? 10 ds).map fun n => (n : Int)
    | ds => (readNat? 10 ds).map fun n => (n : Int)
  | _ => none

/-- Digits with at most one point and at least one digit, then perhaps an exponent. -/
def unsigned? (negative : Bool) (cs : List Char) : Option Decimal :=
  let whole := cs.takeWhile isDigit
  let r := cs.dropWhile isDigit
  let (fraction, r) :=
    match r with
    | '.' :: r => (r.takeWhile isDigit, r.dropWhile isDigit)
    | _ => ([], r)
  match readNat? 10 (whole ++ fraction), exponent? r with
  | some digits, some e => some ⟨negative, digits, e - fraction.length⟩
  | _, _ => none

def read? : List Char → Option Decimal
  | '-' :: r => unsigned? true r
  | '+' :: r => unsigned? false r
  | r => unsigned? false r

end Decimal

end SearchRelay.Text
