import SearchRelay.Text.Numeral

namespace SearchRelay

namespace Text

def readNumber? (base : Nat) (width : Option Nat) (leadingZeros : Bool) (max : Nat)
    (cs : List Char) : Option (Nat × List Char) :=
  let ds := cs.takeWhile fun c => (digitValue? base c).isSome
  let fits := width.all fun w => ds.length ≤ w
  if fits && (leadingZeros || ds.length ≤ 1 || ds.head? != some '0') then
    match readNat? base ds with
    | some n => if n ≤ max then some (n, cs.drop ds.length) else none
    | none => none
  else none

def after? (c : Char) : List Char → Option (List Char)
  | [] => none
  | x :: r => if x = c then some r else none

end Text

structure Ipv4Address where
  a : UInt8
  b : UInt8
  c : UInt8
  d : UInt8
  deriving DecidableEq, Repr

namespace Ipv4Address

def octets (i : Ipv4Address) : List UInt8 := [i.a, i.b, i.c, i.d]

def toText (i : Ipv4Address) : String :=
  ".".intercalate (i.octets.map fun o => toString o.toNat)

def unspecified : Ipv4Address := ⟨0, 0, 0, 0⟩
def localhost : Ipv4Address := ⟨127, 0, 0, 1⟩

/-- A decimal number up to 255 without leading zeros. -/
def readOctet? (cs : List Char) : Option (UInt8 × List Char) :=
  (Text.readNumber? 10 (some 3) false 255 cs).map fun (n, r) => (n.toUInt8, r)

def read? (cs : List Char) : Option (Ipv4Address × List Char) := do
  let (a, r) ← readOctet? cs
  let (b, r) ← (Text.after? '.' r).bind readOctet?
  let (c, r) ← (Text.after? '.' r).bind readOctet?
  let (d, r) ← (Text.after? '.' r).bind readOctet?
  pure (⟨a, b, c, d⟩, r)

end Ipv4Address

end SearchRelay
