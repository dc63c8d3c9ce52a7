import SearchRelay.Json.Error
import SearchRelay.Json.Value

namespace SearchRelay.Json

def isSpace (c : Char) : Bool := c == ' ' || c == '\n' || c == '\t' || c == '\r'

structure Cursor where
  rest : List Char
  place : Place := .start
  deriving DecidableEq, Repr

namespace Cursor

def skipSpace : List Char → Place → Cursor
  | [], p => ⟨[], p⟩
  | c :: r, p => if isSpace c then skipSpace r (p.after c) else ⟨c :: r, p⟩

def skipBlanks (c : Cursor) : Cursor := skipSpace c.rest c.place

def advance (c : Cursor) : Cursor :=
  match c.rest with
  | [] => c
  | x :: r => ⟨r, c.place.after x⟩

def advanceBy : Nat → Cursor → Cursor
  | 0, c => c
  | n + 1, c => advanceBy n c.advance

def fail {α : Type} (c : Cursor) (f : Fault) : Except Error α := .error ⟨.fault f, some c.place⟩

/-- The place behind the first octet of the next character. -/
def peekPlace (c : Cursor) : Place :=
  match c.rest with
  | [] => c.place
  | x :: _ => c.place.into x

def refuse {α : Type} (c : Cursor) (f : Fault) : Except Error α :=
  .error ⟨.fault f, some c.peekPlace⟩

def reject {α : Type} (c : Cursor) (m : Mismatch) : Except Error α :=
  .error ⟨.mismatch m, some c.place⟩

def word : List Char → Cursor → Except Error Cursor
  | [], c => .ok c
  | x :: xs, c =>
    match c.rest with
    | [] => c.fail .endInValue
    | y :: _ => if x = y then word xs c.advance else c.refuse .unknownWord

def hexUnit (c : Cursor) : Except Error (Nat × Cursor) :=
  if (String.ofList (c.rest.take 4)).utf8ByteSize < 4 then
    .error ⟨.fault .endInString, some (c.rest.foldl Place.after c.place)⟩
  else
    match Text.natOfDigits? 16 (c.rest.take 4) 0 with
    | some n => .ok (n, advanceBy 4 c)
    | none => .error ⟨.fault .invalidEscape, some (c.place.afterOctets 4 c.rest)⟩

def isLeading (n : Nat) : Bool := 0xd800 ≤ n && n ≤ 0xdbff
def isTrailing (n : Nat) : Bool := 0xdc00 ≤ n && n ≤ 0xdfff

def surrogateMark (x : Char) (c : Cursor) : Except Error Cursor :=
  match c.rest with
  | [] => c.fail .endInString
  | y :: _ => if x = y then .ok c.advance else c.refuse .unfinishedSurrogates

/-- The character written by one unit, or by two that form a surrogate pair. -/
def unicodeEscape (c : Cursor) : Except Error (Char × Cursor) := do
  let (n, c) ← hexUnit c
  if isTrailing n then c.fail .loneSurrogate
  else if !isLeading n then pure (Char.ofNat n, c)
  else
    let c ← surrogateMark '\\' c
    let c ← surrogateMark 'u' c
    let (m, c) ← hexUnit c
    if isTrailing m then
      pure (Char.ofNat ((n - 0xd800) * 0x400 + (m - 0xdc00) + 0x10000), c)
    else c.fail .loneSurrogate

def simpleEscape? : Char → Option Char
  | '"' => some '"'
  | '\\' => some '\\'
  | '/' => some '/'
  | 'b' => some '\x08'
  | 'f' => some '\x0c'
  | 'n' => some '\n'
  | 'r' => some '\r'
  | 't' => some '\t'
  | _ => none

def stringLoop : Nat → Cursor → List Char → Except Error (String × Cursor)
  | 0, c, _ => c.fail .endInString
  | fuel + 1, c, acc =>
    match c.rest with
    | [] => c.fail .endInString
    | '"' :: _ => .ok (String.ofList acc.reverse, c.advance)
    | '\\' :: _ =>
      let c := c.advance
      match c.rest with
      | [] => c.fail .endInString
      | 'u' :: _ =>
        match unicodeEscape c.advance with
        | .error e => .error e
        | .ok (x, c) => stringLoop fuel c (x :: acc)
      | y :: _ =>
        match simpleEscape? y with
        | some x => stringLoop fuel c.advance (x :: acc)
        | none => c.refuse .invalidEscape
    | x :: _ =>
      if x.toNat < 0x20 then c.advance.fail .controlCharacter
      else stringLoop fuel c.advance (x :: acc)

def string (c : Cursor) : Except Error (String × Cursor) := stringLoop (c.rest.length + 1) c []

/-- Steps over a string of which nothing is kept; its escapes need not encode characters. -/
def skipStringLoop : Nat → Cursor → Except Error Cursor
  | 0, c => c.fail .endInString
  | fuel + 1, c =>
    match c.rest with
    | [] => c.fail .endInString
    | '"' :: _ => .ok c.advance
    | '\\' :: _ =>
      let c := c.advance
      match c.rest with
      | [] => c.fail .endInString
      | 'u' :: _ =>
        match hexUnit c.advance with
        | .error e => .error e
        | .ok (_, c) => skipStringLoop fuel c
      | y :: _ =>
        if (simpleEscape? y).isSome then skipStringLoop fuel c.advance
        else c.refuse .invalidEscape
    | x :: _ =>
      if x.toNat < 0x20 then c.fail .controlCharacter else skipStringLoop fuel c.advance

def skipString (c : Cursor) : Except Error Cursor := skipStringLoop (c.rest.length + 1) c

def atDigit (c : Cursor) : Bool := c.rest.head?.any Text.isDigit

def digits (c : Cursor) : List Char × Cursor :=
  let ds := c.rest.takeWhile Text.isDigit
  (ds, advanceBy ds.length c)

def maxPower : Nat := 308

/-- A significand scaled by a power of ten with one rounding for each factor, as the magnitude of
a number; none where it is too large. -/
def scale : Nat → Binary64 → Int → Option Binary64
  | 0, x, _ => some x
  | fuel + 1, x, e =>
    if e.natAbs ≤ maxPower then
      let power := Binary64.ofDecimal false 1 e.natAbs
      if e < 0 then some (x.div power)
      else
        let y := x.mul power
        if y.isFinite then some y else none
    else
      match x with
      | .finite _ 0 _ => some x
      | _ =>
        if 0 ≤ e then none
        else scale fuel (x.div (Binary64.ofDecimal false 1 maxPower)) (e + maxPower)

def float (negative : Bool) (significand : Nat) (e : Int) (c : Cursor) :
    Except Error (Number × Cursor) :=
  match scale 4 (Binary64.ofDecimal false significand 0) e with
  | some x => .ok (.float (if negative then x.neg else x), c)
  | none => c.fail .numberOutOfRange

def gather : List Char → Nat → Nat × List Char
  | [], s => (s, [])
  | d :: r, s =>
    let n := s * 10 + (d.toNat - 48)
    if n < Nat.pow 2 64 then gather r n else (s, d :: r)

def gatherExponent : List Char → Nat → Option Nat
  | [], e => some e
  | d :: r, e =>
    let n := e * 10 + (d.toNat - 48)
    if n < Nat.pow 2 31 then gatherExponent r n else none

/-- How many digits of an exponent fit 31 bits, and the one after them. -/
def exponentReach : List Char → Nat → Nat
  | [], _ => 0
  | d :: r, e =>
    let n := e * 10 + (d.toNat - 48)
    if n < Nat.pow 2 31 then exponentReach r n + 1 else 1

def clampExponent (e : Int) : Int := max (-(Nat.pow 2 31 : Int)) (min e (Nat.pow 2 31 - 1))

def exponentPart (negative : Bool) (significand : Nat) (e : Int) (c : Cursor) :
    Except Error (Number × Cursor) :=
  match c.rest with
  | x :: _ =>
    if x = 'e' ∨ x = 'E' then
      let c := c.advance
      let (down, c) :=
        match c.rest with
        | '-' :: _ => (true, c.advance)
        | '+' :: _ => (false, c.advance)
        | _ => (false, c)
      if c.rest.isEmpty then c.fail .endInValue
      else if !c.atDigit then c.refuse .invalidNumber
      else
        let (ds, d) := c.digits
        match gatherExponent ds 0 with
        | some n =>
          float negative significand (clampExponent (if down then e - n else e + n)) d
        | none =>
          if significand ≠ 0 ∧ !down then
            (advanceBy (exponentReach ds 0) c).fail .numberOutOfRange
          else .ok (.float (Binary64.zero negative), d)
    else float negative significand e c
  | [] => float negative significand e c

/-- Digits behind the point, then perhaps an exponent; `e` counts the digits left out before. -/
def fractionPart (negative : Bool) (significand e : Nat) (c : Cursor) :
    Except Error (Number × Cursor) :=
  let c := c.advance
  let (ds, d) := c.digits
  let (s, left) := gather ds significand
  let taken := ds.length - left.length
  if ds.isEmpty then
    if c.rest.isEmpty then c.fail .endInValue else c.refuse .invalidNumber
  else exponentPart negative s ((e : Int) - taken) d

/-- A number behind its sign: an integer where 64 bits hold it, otherwise a float. -/
def number (negative : Bool) (c : Cursor) : Except Error (Number × Cursor) :=
  match c.rest with
  | [] => c.fail .endInValue
  | x :: _ =>
    if !Text.isDigit x then c.refuse .invalidNumber
    else if x == '0' && c.advance.atDigit then c.advance.refuse .invalidNumber
    else
      let (ds, d) := c.digits
      let (s, left) := gather ds 0
      match d.rest with
      | '.' :: _ => fractionPart negative s left.length d
      | 'e' :: _ | 'E' :: _ => exponentPart negative s left.length d
      | _ =>
        if !left.isEmpty then float negative s left.length d
        else if !negative then .ok (.integer s, d)
        else if s = 0 ∨ Nat.pow 2 63 < s then
          .ok (.float (Binary64.ofDecimal false s 0).neg, d)
        else .ok (.integer (-(s : Int)), d)

def skipExponent (c : Cursor) : Except Error Cursor :=
  match c.rest with
  | x :: _ =>
    if x = 'e' ∨ x = 'E' then
      let c := c.advance
      let c :=
        match c.rest with
        | '-' :: _ | '+' :: _ => c.advance
        | _ => c
      if c.atDigit then .ok c.digits.2 else c.refuse .invalidNumber
    else .ok c
  | [] => .ok c

def skipNumber (c : Cursor) : Except Error Cursor :=
  match c.rest with
  | [] => c.fail .invalidNumber
  | x :: _ =>
    if !Text.isDigit x then c.refuse .invalidNumber
    else if x == '0' && c.advance.atDigit then c.advance.refuse .invalidNumber
    else
      let d := c.digits.2
      match d.rest with
      | '.' :: _ =>
        let e := d.advance
        if e.atDigit then skipExponent e.digits.2 else e.refuse .invalidNumber
      | _ => skipExponent d

end Cursor

end SearchRelay.Json
