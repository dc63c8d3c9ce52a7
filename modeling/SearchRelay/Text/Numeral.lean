namespace SearchRelay.Text

/-- The value of a digit in a base up to sixteen, both cases of the letters allowed. -/
def digitValue? (base : Nat) (c : Char) : Option Nat :=
  let n :=
    if '0' ≤ c && c ≤ '9' then c.toNat - 48
    else if 'a' ≤ c && c ≤ 'f' then c.toNat - 87
    else if 'A' ≤ c && c ≤ 'F' then c.toNat - 55
    else 16
  if n < base then some n else none

def isDigit (c : Char) : Bool := '0' ≤ c && c ≤ '9'

def isHex (c : Char) : Bool := (digitValue? 16 c).isSome

def natOfDigits? (base : Nat) : List Char → Nat → Option Nat
  | [], acc => some acc
  | c :: r, acc =>
    match digitValue? base c with
    | some d => natOfDigits? base r (acc * base + d)
    | none => none

def readNat? (base : Nat) : List Char → Option Nat
  | [] => none
  | cs => natOfDigits? base cs 0

def hex (n : Nat) : String := String.ofList (Nat.toDigits 16 n)

def padZero (width : Nat) (s : String) : String :=
  String.ofList (List.replicate (width - s.length) '0') ++ s

inductive NumeralError
  | empty
  | invalidDigit
  | tooLarge
  deriving DecidableEq, Repr

namespace NumeralError

def message : NumeralError → String
  | empty => "cannot parse integer from empty string"
  | invalidDigit => "invalid digit found in string"
  | tooLarge => "number too large to fit in target type"

end NumeralError

/-- Reads digits from the left; the first digit that is none, or that takes the value past
`max`, decides the error. -/
def boundedDigits (max : Nat) : List Char → Nat → Except NumeralError Nat
  | [], acc => .ok acc
  | c :: r, acc =>
    match digitValue? 10 c with
    | none => .error .invalidDigit
    | some d => if max < acc * 10 + d then .error .tooLarge else boundedDigits max r (acc * 10 + d)

/-- A decimal number of at most `max` with an optional plus sign and any leading zeros. -/
def readBounded (max : Nat) (s : String) : Except NumeralError Nat :=
  match s.toList with
  | [] => .error .empty
  | ['+'] => .error .invalidDigit
  | '+' :: r => boundedDigits max r 0
  | cs => boundedDigits max cs 0

end SearchRelay.Text
