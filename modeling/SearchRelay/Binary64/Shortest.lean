import SearchRelay.Binary64.Basic

/-!
The shortest decimal that reads back as a given double: of the decimal grids with one, two, …
seventeen digits, the first that meets the interval of numbers rounding to the double.
-/

namespace SearchRelay.Binary64

/-- The largest `k` with `10 ^ k ≤ num / den`, for a positive quotient. -/
def decimalExponent (num den : Nat) : Int :=
  if den ≤ num then ((Nat.toDigits 10 (num / den)).length : Int) - 1
  else
    let t := (Nat.toDigits 10 (den / num)).length - 1
    if den ≤ num * Nat.pow 10 t then -(t : Int) else -((t : Int) + 1)

def inUnits (num den : Nat) (p : Int) : Nat × Nat :=
  if 0 ≤ p then (num, den * Nat.pow 10 p.toNat) else (num * Nat.pow 10 (-p).toNat, den)

def searchGrid (even : Bool) (low value high den : Nat) (top : Int) : Nat → Nat → Nat × Int
  | 0, _ => (0, 0)
  | fuel + 1, n =>
    let p := top - (n : Int) + 1
    let (v, d) := inUnits value den p
    let (l, _) := inUnits low den p
    let (h, _) := inUnits high den p
    let inside (x : Nat) : Bool :=
      if even then l ≤ x * d && x * d ≤ h else l < x * d && x * d < h
    let below := v / d
    let above := below + 1
    match inside below, inside above with
    | true, true =>
      let fromBelow := v - below * d
      let fromAbove := above * d - v
      if fromBelow < fromAbove || (fromBelow == fromAbove && below % 2 == 0) then (below, p)
      else (above, p)
    | true, false => (below, p)
    | false, true => (above, p)
    | false, false => searchGrid even low value high den top fuel (n + 1)

def stripZeros : Nat → Nat → Int → Nat × Int
  | 0, d, p => (d, p)
  | fuel + 1, d, p => if d ≠ 0 ∧ d % 10 = 0 then stripZeros fuel (d / 10) (p + 1) else (d, p)

/-- The fewest digits `d` and the exponent `p` with `d · 10 ^ p` nearest to a positive double
among the decimals of that length that read back as it. -/
def shortest (significand : Nat) (exponent : Int) : Nat × Int :=
  let lowGap := if significand = Nat.pow 2 52 ∧ minExponent < exponent then 1 else 2
  let (v, d) := magnitude (4 * significand) (exponent - 2)
  let (l, _) := magnitude (4 * significand - lowGap) (exponent - 2)
  let (h, _) := magnitude (4 * significand + 2) (exponent - 2)
  let (digits, p) := searchGrid (significand % 2 == 0) l v h d (decimalExponent v d) 17 1
  stripZeros 20 digits p

end SearchRelay.Binary64
