import SearchRelay.Json.Reader

/-!
Typed values from JSON texts. A record is an object with known fields, or an array of them in
order; its own errors are placed behind its closing bracket where there is one.
-/

namespace SearchRelay.Json

/-- Reads a value, given how many levels of arrays and objects it may have. -/
abbrev Decoder (α : Type) := Nat → Cursor → Except Error (α × Cursor)

def maxDepth : Nat := 127

def Number.found : Number → Found
  | .integer n => .integer n
  | .float x => .float x

def Value.found : Value → Found
  | .null => .unit
  | .bool b => .bool b
  | .number n => n.found
  | .string s => .text s
  | .array _ => .sequence
  | .object _ => .mapping

namespace Decoder

variable {α σ : Type}

/-- Rejects the next value for its type: a scalar is read first, a collection is not. -/
def unexpected (expected : String) (c : Cursor) : Except Error α :=
  match c.rest with
  | '[' :: _ => c.reject (.invalidType .sequence expected)
  | '\x7b' :: _ => c.reject (.invalidType .mapping expected)
  | _ =>
    match c.value 0 with
    | .error e => .error e
    | .ok (v, c) => c.reject (.invalidType v.found expected)

def starting (c : Cursor) : Except Error (Char × Cursor) :=
  let c := c.skipBlanks
  match c.rest with
  | [] => c.refuse .endInValue
  | x :: _ => .ok (x, c)

def text (expected : String) : Decoder String := fun _ c => do
  let (x, c) ← starting c
  if x = '"' then c.advance.string else unexpected expected c

def parsed (expected : String) (parse : String → Except Mismatch α) : Decoder α := fun depth c => do
  let (s, c) ← text expected depth c
  match parse s with
  | .ok a => pure (a, c)
  | .error m => c.reject m

def word : Decoder Nat := fun _ c => do
  let (x, c) ← starting c
  if x = '-' ∨ Text.isDigit x then
    let (n, c) ← (if x = '-' then c.advance.number true else c.number false)
    match n with
    | .integer n =>
      if 0 ≤ n then pure (n.toNat, c) else c.reject (.invalidValue (.integer n) "u64")
    | .float x => c.reject (.invalidType (.float x) "u64")
  else unexpected "u64" c

def bool : Decoder Bool := fun _ c => do
  let (x, c) ← starting c
  if x = 't' then pure (true, ← c.advance.word "rue".toList)
  else if x = 'f' then pure (false, ← c.advance.word "alse".toList)
  else unexpected "a boolean" c

def unit : Decoder Unit := fun _ c => do
  let (x, c) ← starting c
  if x = 'n' then pure ((), ← c.advance.word "ull".toList) else unexpected "unit" c

def free : Decoder Value := fun depth c => c.value depth

/-- One of several names, as a text or as the key of an object with the value null. -/
def variant (names : List (String × α)) : Decoder α := fun depth c => do
  let name : Decoder α := parsed "variant identifier" fun s =>
    match names.lookup s with
    | some a => .ok a
    | none => .error (.unknownVariant s (names.map Prod.fst))
  let c := c.skipBlanks
  match c.rest with
  | [] => c.refuse .endInValue
  | '"' :: _ => name depth c
  | '\x7b' :: _ =>
    if depth = 0 then c.refuse .tooDeep
    else
      let (a, c) ← name depth c.advance
      let c ← c.colon
      let (_, c) ← unit depth c
      let c := c.skipBlanks
      match c.rest with
      | [] => c.fail .endInObject
      | '\x7d' :: _ => pure (a, c.advance)
      | _ => c.fail .missingValue
  | _ => c.refuse .missingValue

structure Field (σ : Type) where
  name : String
  read : Decoder (σ → σ)

def field {β : Type} (name : String) (decoder : Decoder β) (set : β → σ → σ) : Field σ :=
  ⟨name, fun depth c => (decoder depth c).map fun (b, c) => (set b, c)⟩

abbrev Outcome (σ : Type) := Except Error (Except Mismatch σ × Cursor)

def plural (n : Nat) : String := if n = 1 then "1 element" else s!"{n} elements"

def items (expected : String) (count depth : Nat) : List (Field σ) → Nat → σ → Cursor → Outcome σ
  | [], _, value, c => .ok (.ok value, c)
  | f :: r, i, value, c =>
    match c.nextItem (i == 0) with
    | .error e => .error e
    | .ok (false, c) => .ok (.error (.invalidLength i s!"{expected} with {plural count}"), c)
    | .ok (true, c) =>
      match f.read depth c with
      | .error e => .error e
      | .ok (set, c) => items expected count depth r (i + 1) (set value) c

def members (fields : List (Field σ)) (depth : Nat) :
    Nat → List String → σ → Cursor → Outcome σ
  | 0, _, _, c => c.fail .endInObject
  | fuel + 1, seen, value, c =>
    match c.nextKey seen.isEmpty with
    | .error e => .error e
    | .ok (false, c) =>
      match fields.find? fun f => !seen.contains f.name with
      | some f => .ok (.error (.missingField f.name), c)
      | none => .ok (.ok value, c)
    | .ok (true, c) =>
      match c.advance.string with
      | .error e => .error e
      | .ok (key, c) =>
        match fields.find? fun f => f.name == key with
        | none =>
          match c.colon.bind Cursor.skipValue with
          | .error e => .error e
          | .ok c => members fields depth fuel (key :: seen) value c
        | some f =>
          if seen.contains key then .ok (.error (.duplicateField key), c)
          else
            match c.colon.bind (f.read depth) with
            | .error e => .error e
            | .ok (set, c) => members fields depth fuel (key :: seen) (set value) c

def close (closing : Option Error × Cursor) (outcome : Except Mismatch σ) :
    Except Error (σ × Cursor) :=
  match outcome, closing with
  | .error m, (_, c) => c.reject m
  | .ok _, (some e, _) => .error e
  | .ok value, (none, c) => .ok (value, c)

/-- A record with its fields, all of which are required; `blank` holds what none of them sets. -/
def record (name : String) (fields : List (Field σ)) (blank : σ) : Decoder σ := fun depth c => do
  let expected := "struct " ++ name
  let (x, c) ← starting c
  if x = '[' then
    match depth with
    | 0 => c.refuse .tooDeep
    | depth + 1 =>
      let (outcome, c) ← items expected fields.length depth fields 0 blank c.advance
      close c.closeArray outcome
  else if x = '\x7b' then
    match depth with
    | 0 => c.refuse .tooDeep
    | depth + 1 =>
      let (outcome, c) ← members fields depth (c.rest.length + 1) [] blank c.advance
      close c.closeObject outcome
  else unexpected expected c

/-- Reads a text that holds one value and nothing else. -/
def run (decoder : Decoder α) (s : String) : Except Error α := do
  let (a, c) ← decoder maxDepth ⟨s.toList, .start⟩
  let c := c.skipBlanks
  if c.rest.isEmpty then pure a else c.refuse .trailingCharacters

end Decoder

end SearchRelay.Json
