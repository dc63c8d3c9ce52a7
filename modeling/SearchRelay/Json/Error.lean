import SearchRelay.Mismatch

namespace SearchRelay.Json

/-- A place in a text: the line from one, and the octets of the line in front of it. -/
structure Place where
  line : Nat
  column : Nat
  deriving DecidableEq, Repr

namespace Place

def start : Place := ⟨1, 0⟩

def after (p : Place) (c : Char) : Place :=
  if c = '\n' then ⟨p.line + 1, 0⟩ else ⟨p.line, p.column + c.utf8Size⟩

def into (p : Place) (c : Char) : Place :=
  if c = '\n' then ⟨p.line + 1, 0⟩ else ⟨p.line, p.column + 1⟩

/-- The place behind a number of octets, which may end inside a character. -/
def afterOctets (p : Place) : Nat → List Char → Place
  | 0, _ => p
  | _, [] => p
  | n, c :: r =>
    if c.utf8Size ≤ n then afterOctets (p.after c) (n - c.utf8Size) r
    else ⟨p.line, p.column + n⟩

end Place

inductive Fault
  | endInArray
  | endInObject
  | endInString
  | endInValue
  | missingColon
  | missingArrayEnd
  | missingObjectEnd
  | unknownWord
  | missingValue
  | invalidEscape
  | invalidNumber
  | numberOutOfRange
  | controlCharacter
  | keyNotString
  | loneSurrogate
  | trailingComma
  | trailingCharacters
  | unfinishedSurrogates
  | tooDeep
  deriving DecidableEq, Repr

namespace Fault

def text : Fault → String
  | endInArray => "EOF while parsing a list"
  | endInObject => "EOF while parsing an object"
  | endInString => "EOF while parsing a string"
  | endInValue => "EOF while parsing a value"
  | missingColon => "expected `:`"
  | missingArrayEnd => "expected `,` or `]`"
  | missingObjectEnd => "expected `,` or `\x7d`"
  | unknownWord => "expected ident"
  | missingValue => "expected value"
  | invalidEscape => "invalid escape"
  | invalidNumber => "invalid number"
  | numberOutOfRange => "number out of range"
  | controlCharacter => "control character (\\u0000-\\u001F) found while parsing a string"
  | keyNotString => "key must be a string"
  | loneSurrogate => "lone leading surrogate in hex escape"
  | trailingComma => "trailing comma"
  | trailingCharacters => "trailing characters"
  | unfinishedSurrogates => "unexpected end of hex escape"
  | tooDeep => "recursion limit exceeded"

end Fault

inductive Category
  | syntactic
  | data
  | ended
  deriving DecidableEq, Repr

inductive Cause
  | fault (f : Fault)
  | mismatch (m : Mismatch)
  deriving DecidableEq, Repr

structure Error where
  cause : Cause
  place : Option Place := none
  deriving DecidableEq, Repr

namespace Error

def message (e : Error) : String :=
  let text :=
    match e.cause with
    | .fault f => f.text
    | .mismatch m => m.message .json
  match e.place with
  | none => text
  | some p => s!"{text} at line {p.line} column {p.column}"

def category (e : Error) : Category :=
  match e.cause with
  | .mismatch _ => .data
  | .fault .endInArray | .fault .endInObject | .fault .endInString | .fault .endInValue => .ended
  | .fault _ => .syntactic

end Error

end SearchRelay.Json
