import SearchRelay.Network.Ipv4

namespace SearchRelay

structure Ipv6Address where
  groups : Vector UInt16 8
  deriving DecidableEq, Repr

namespace Ipv6Address

/-- Fills with zeros behind the groups at the front and in front of those at the end. -/
def ofParts (front back : List UInt16) : Ipv6Address :=
  ⟨Vector.ofFn fun i =>
    if i.val < front.length then front.getD i 0
    else if 8 - back.length ≤ i.val then back.getD (i - (8 - back.length)) 0
    else 0⟩

def ofGroups (gs : List UInt16) : Ipv6Address := ofParts gs []

def toList (i : Ipv6Address) : List UInt16 := i.groups.toList

def groupsOf (i : Ipv4Address) : List UInt16 :=
  [i.a.toUInt16 * 256 + i.b.toUInt16, i.c.toUInt16 * 256 + i.d.toUInt16]

def ofIpv4 (i : Ipv4Address) : Ipv6Address := ofParts [] (0xffff :: groupsOf i)

def ipv4? (i : Ipv6Address) : Option Ipv4Address :=
  match i.toList with
  | [0, 0, 0, 0, 0, 0xffff, g, h] =>
    some ⟨(g / 256).toUInt8, (g % 256).toUInt8, (h / 256).toUInt8, (h % 256).toUInt8⟩
  | _ => none

def isUnspecified (i : Ipv6Address) : Bool := i.toList.all (· == 0)

def isMulticast (i : Ipv6Address) : Bool := (0xff00 : UInt16) ≤ i.groups[0]

/-- Addresses that mean something on one interface only. -/
def isLinkLocal (i : Ipv6Address) : Bool :=
  (0xfe80 : UInt16) ≤ i.groups[0] && i.groups[0] < (0xfec0 : UInt16)

def zeros (gs : List UInt16) : Nat := (gs.takeWhile (· == 0)).length

/-- The start and the length of the longest run of zeros, the first one of several. -/
def longestRun : List UInt16 → Nat × Nat
  | [] => (0, 0)
  | g :: gs =>
    let here := zeros (g :: gs)
    let (start, length) := longestRun gs
    if length ≤ here then (0, here) else (start + 1, length)

def groupTexts (gs : List UInt16) : String :=
  ":".intercalate (gs.map fun g => Text.hex g.toNat)

def toText (i : Ipv6Address) : String :=
  match i.ipv4? with
  | some v4 => "::ffff:" ++ v4.toText
  | none =>
    let gs := i.toList
    let (start, length) := longestRun gs
    if 1 < length then groupTexts (gs.take start) ++ "::" ++ groupTexts (gs.drop (start + length))
    else groupTexts gs

def separated? (first : Bool) (cs : List Char) : Option (List Char) :=
  if first then some cs else Text.after? ':' cs

def readGroups : Nat → Bool → List Char → List UInt16 × Bool × List Char
  | 0, _, cs => ([], false, cs)
  | limit + 1, first, cs =>
    match separated? first cs with
    | none => ([], false, cs)
    | some body =>
      match (if limit = 0 then none else Ipv4Address.read? body) with
      | some (v4, r) => (groupsOf v4, true, r)
      | none =>
        match Text.readNumber? 16 (some 4) true 0xffff body with
        | none => ([], false, cs)
        | some (g, r) =>
          let (gs, v4, r) := readGroups limit false r
          (g.toUInt16 :: gs, v4, r)

/-- Reads an address at the start of a text. A `::` stands for one group at least. -/
def read? (cs : List Char) : Option (Ipv6Address × List Char) :=
  let (front, v4, r) := readGroups 8 true cs
  if front.length = 8 then some (ofGroups front, r)
  else if v4 then none
  else
    match (Text.after? ':' r).bind (Text.after? ':') with
    | none => none
    | some r =>
      let (back, _, r) := readGroups (7 - front.length) true r
      some (ofParts front back, r)

end Ipv6Address

end SearchRelay
