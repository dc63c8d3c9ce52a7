namespace SearchRelay

/-- A double-precision number; `finite` stands for ± significand · 2 ^ exponent. -/
inductive Binary64
  | finite (negative : Bool) (significand : Nat) (exponent : Int)
  | infinite (negative : Bool)
  | nan
  deriving DecidableEq, Repr

namespace Binary64

abbrev minExponent : Int := -1074
abbrev maxExponent : Int := 971

def zero (negative : Bool) : Binary64 := .finite negative 0 minExponent

def roundQuotient (num den : Nat) : Nat :=
  let q := num / den
  let r := num % den
  if 2 * r < den then q
  else if den < 2 * r then q + 1
  else if q % 2 = 0 then q else q + 1

def scaled (num den : Nat) (e : Int) : Nat × Nat :=
  if 0 ≤ e then (num, den * Nat.pow 2 e.toNat) else (num * Nat.pow 2 (-e).toNat, den)

/-- The double nearest to `num / den`, a tie going to the even significand. -/
def ofRatio (negative : Bool) (num den : Nat) : Binary64 :=
  if num = 0 then zero negative
  else
    let guess : Int := (num.log2 : Int) - (den.log2 : Int) - 53
    let (a, b) := scaled num den guess
    let e := max (if Nat.pow 2 53 ≤ a / b then guess + 1 else guess) minExponent
    let (a, b) := scaled num den e
    let q := roundQuotient a b
    let (q, e) := if q = Nat.pow 2 53 then (Nat.pow 2 52, e + 1) else (q, e)
    if maxExponent < e then .infinite negative else .finite negative q e

def magnitude (significand : Nat) (exponent : Int) : Nat × Nat :=
  if 0 ≤ exponent then (significand * Nat.pow 2 exponent.toNat, 1)
  else (significand, Nat.pow 2 (-exponent).toNat)

def mul : Binary64 → Binary64 → Binary64
  | .finite n m e, .finite n' m' e' =>
    let (a, b) := magnitude m e
    let (c, d) := magnitude m' e'
    ofRatio (n != n') (a * c) (b * d)
  | .infinite n, .finite n' m _ => if m = 0 then .nan else .infinite (n != n')
  | .finite n m _, .infinite n' => if m = 0 then .nan else .infinite (n != n')
  | .infinite n, .infinite n' => .infinite (n != n')
  | _, _ => .nan

def div : Binary64 → Binary64 → Binary64
  | .finite n m e, .finite n' m' e' =>
    let (a, b) := magnitude m e
    let (c, d) := magnitude m' e'
    if m' = 0 then (if m = 0 then .nan else .infinite (n != n'))
    else ofRatio (n != n') (a * d) (b * c)
  | .infinite n, .finite n' _ _ => .infinite (n != n')
  | .finite n _ _, .infinite n' => zero (n != n')
  | _, _ => .nan

def neg : Binary64 → Binary64
  | .finite n m e => .finite (!n) m e
  | .infinite n => .infinite (!n)
  | .nan => .nan

/-- The double nearest to ± digits · 10 ^ exponent. An exponent far out of range is decided
without forming the power. -/
def ofDecimal (negative : Bool) (digits : Nat) (exponent : Int) : Binary64 :=
  let length : Int := (Nat.toDigits 10 digits).length
  if digits = 0 then zero negative
  else if 400 < exponent + length then .infinite negative
  else if exponent + length < -400 then zero negative
  else if 0 ≤ exponent then ofRatio negative (digits * Nat.pow 10 exponent.toNat) 1
  else ofRatio negative digits (Nat.pow 10 (-exponent).toNat)

def isFinite : Binary64 → Bool
  | .finite .. => true
  | _ => false

end Binary64

end SearchRelay
