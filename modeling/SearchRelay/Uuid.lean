import SearchRelay.Text.Numeral

namespace SearchRelay

structure Uuid where
  bits : BitVec 128
  deriving DecidableEq, Repr

namespace Uuid

def groups : List Nat := [8, 4, 4, 4, 12]

def splitGroups : List Nat → List Char → List (List Char)
  | [], _ => []
  | n :: r, cs => cs.take n :: splitGroups r (cs.drop n)

def digits (u : Uuid) : List Char := (Text.padZero 32 (Text.hex u.bits.toNat)).toList

def toText (u : Uuid) : String :=
  "-".intercalate ((splitGroups groups u.digits).map String.ofList)

/-- An identifier of version 7: it starts with the time in milliseconds, and chance draws the
rest. -/
def ofTime (milliseconds draw : Nat) : Uuid :=
  let time := milliseconds % Nat.pow 2 48
  let a := draw % Nat.pow 2 12
  let b := draw / Nat.pow 2 12 % Nat.pow 2 62
  let high := time * Nat.pow 2 16 + 7 * Nat.pow 2 12 + a
  ⟨BitVec.ofNat 128 (high * Nat.pow 2 64 + Nat.pow 2 63 + b)⟩

def version (u : Uuid) : Nat := u.bits.toNat / Nat.pow 2 76 % 16

inductive ParseError
  | character (found : Char) (index : Nat)
  | length (found : Nat)
  | groupCount (found : Nat)
  | groupLength (group found : Nat)
  deriving DecidableEq, Repr

namespace ParseError

def message : ParseError → String
  | character c i => s!"UUID parsing failed: invalid character: found `{c}` at {i}"
  | length n => s!"UUID parsing failed: invalid length: found {n}"
  | groupCount n => s!"UUID parsing failed: invalid group count: expected 5, found {n}"
  | groupLength g n =>
    let expected := groups.getD g 0
    s!"UUID parsing failed: invalid group length in group {g}: expected {expected}, found {n}"

end ParseError

def afterUrn? (cs : List Char) : Option (List Char) :=
  if (cs.take 9).map Char.toLower = "urn:uuid:".toList then some (cs.drop 9) else none

def insideBraces? : List Char → Option (List Char)
  | '\x7b' :: r => if r.getLast? = some '\x7d' then some r.dropLast else none
  | _ => none

def ofDigits? (cs : List Char) : Option Uuid :=
  if cs.length = 32 then (Text.readNat? 16 cs).map fun n => ⟨BitVec.ofNat 128 n⟩ else none

def ofHyphenated? (cs : List Char) : Option Uuid :=
  match splitGroups [8, 1, 4, 1, 4, 1, 4, 1, 12] cs with
  | [a, ['-'], b, ['-'], c, ['-'], d, ['-'], e] =>
    if cs.length = 36 then ofDigits? (a ++ b ++ c ++ d ++ e) else none
  | _ => none

/-- The first character that stands in no identifier, and its octet index. -/
def firstStray? : List Char → Nat → Option (Char × Nat)
  | [], _ => none
  | c :: r, i =>
    if c = '-' ∨ Text.isHex c then firstStray? r (i + c.utf8Size) else some (c, i)

def hyphens : List Char → Nat → List Nat
  | [], _ => []
  | c :: r, i => if c = '-' then i :: hyphens r (i + 1) else hyphens r (i + c.utf8Size)

def badGroup? : List Nat → List Nat → Nat → Nat → Option (Nat × Nat)
  | n :: ns, h :: hs, group, start =>
    if h = start + n then badGroup? ns hs (group + 1) (h + 1) else some (group, h - start)
  | _, _, _, _ => none

def octets (cs : List Char) : Nat := (String.ofList cs).utf8ByteSize

def diagnose (cs : List Char) : ParseError :=
  let (body, offset, wrapped) :=
    match insideBraces? cs, afterUrn? cs with
    | some b, _ => (b, 1, true)
    | none, some b => (b, 9, true)
    | none, none => (cs, 0, false)
  match firstStray? body 0 with
  | some (c, i) => .character c (i + offset)
  | none =>
    let hs := hyphens body 0
    if hs.isEmpty && !wrapped then .length (octets cs)
    else if hs.length ≠ 4 then .groupCount (hs.length + 1)
    else
      match badGroup? groups hs 0 0 with
      | some (group, found) => .groupLength group found
      | none => .groupLength 4 (octets cs - 24)

/-- Reads an identifier: 32 digits, or the hyphenated form, alone, in braces or behind
`urn:uuid:`. -/
def parse (s : String) : Except ParseError Uuid :=
  let cs := s.toList
  let n := octets cs
  let hyphenated (body : List Char) : Except ParseError Uuid :=
    match ofHyphenated? body with
    | some u => .ok u
    | none => .error (diagnose body)
  if n = 32 then
    match ofDigits? cs with
    | some u => .ok u
    | none => .error (diagnose cs)
  else if n = 36 then hyphenated cs
  else
    match (if n = 38 then insideBraces? cs else if n = 45 then afterUrn? cs else none) with
    | some body => hyphenated body
    | none => .error (diagnose cs)

end Uuid

end SearchRelay
