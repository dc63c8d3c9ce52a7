import SearchRelay.Json.Cursor

namespace SearchRelay.Json

namespace Cursor

def nextItem (first : Bool) (c : Cursor) : Except Error (Bool × Cursor) :=
  let c := c.skipBlanks
  match c.rest with
  | [] => c.refuse .endInArray
  | ']' :: _ => .ok (false, c)
  | x :: _ =>
    if first then .ok (true, c)
    else if x = ',' then
      let c := c.advance.skipBlanks
      match c.rest with
      | [] => c.refuse .endInValue
      | ']' :: _ => c.refuse .trailingComma
      | _ => .ok (true, c)
    else c.refuse .missingArrayEnd

def nextKey (first : Bool) (c : Cursor) : Except Error (Bool × Cursor) :=
  let c := c.skipBlanks
  match c.rest with
  | [] => c.refuse .endInObject
  | '\x7d' :: _ => .ok (false, c)
  | x :: _ =>
    if first then (if x = '"' then .ok (true, c) else c.refuse .keyNotString)
    else if x = ',' then
      let c := c.advance.skipBlanks
      match c.rest with
      | [] => c.refuse .endInValue
      | '"' :: _ => .ok (true, c)
      | '\x7d' :: _ => c.refuse .trailingComma
      | _ => c.refuse .keyNotString
    else c.refuse .missingObjectEnd

def colon (c : Cursor) : Except Error Cursor :=
  let c := c.skipBlanks
  match c.rest with
  | [] => c.refuse .endInObject
  | ':' :: _ => .ok c.advance
  | _ => c.refuse .missingColon

/-- Where an array ends, or where something else was found instead of its end. -/
def closeArray (c : Cursor) : Option Error × Cursor :=
  let error (c : Cursor) (f : Fault) : Option Error × Cursor :=
    (some ⟨.fault f, some c.peekPlace⟩, c)
  let c := c.skipBlanks
  match c.rest with
  | [] => error c .endInArray
  | ']' :: _ => (none, c.advance)
  | ',' :: _ =>
    let c := c.advance.skipBlanks
    error c (if c.rest.head? = some ']' then .trailingComma else .trailingCharacters)
  | _ => error c .trailingCharacters

def closeObject (c : Cursor) : Option Error × Cursor :=
  let error (c : Cursor) (f : Fault) : Option Error × Cursor :=
    (some ⟨.fault f, some c.peekPlace⟩, c)
  let c := c.skipBlanks
  match c.rest with
  | [] => error c .endInObject
  | '\x7d' :: _ => (none, c.advance)
  | ',' :: _ => error c .trailingComma
  | _ => error c .trailingCharacters

end Cursor

namespace Value

mutual

def read (depth : Nat) : Nat → Cursor → Except Error (Value × Cursor)
  | 0, c => c.fail .endInValue
  | fuel + 1, c =>
    let c := c.skipBlanks
    match c.rest with
    | [] => c.refuse .endInValue
    | x :: _ =>
      if x = 'n' then (c.advance.word "ull".toList).map fun c => (.null, c)
      else if x = 't' then (c.advance.word "rue".toList).map fun c => (.bool true, c)
      else if x = 'f' then (c.advance.word "alse".toList).map fun c => (.bool false, c)
      else if x = '-' then (c.advance.number true).map fun (n, c) => (.number n, c)
      else if Text.isDigit x then (c.number false).map fun (n, c) => (.number n, c)
      else if x = '"' then c.advance.string.map fun (s, c) => (.string s, c)
      else if x = '[' then
        match depth with
        | 0 => c.refuse .tooDeep
        | depth + 1 =>
          (readItems depth fuel true c.advance).map fun (vs, c) => (.array vs, c.advance)
      else if x = '\x7b' then
        match depth with
        | 0 => c.refuse .tooDeep
        | depth + 1 =>
          (readMembers depth fuel true c.advance []).map fun (ms, c) => (.object ms, c.advance)
      else c.refuse .missingValue

def readItems (depth : Nat) : Nat → Bool → Cursor → Except Error (List Value × Cursor)
  | 0, _, c => c.fail .endInArray
  | fuel + 1, first, c =>
    match c.nextItem first with
    | .error e => .error e
    | .ok (false, c) => .ok ([], c)
    | .ok (true, c) =>
      match read depth fuel c with
      | .error e => .error e
      | .ok (v, c) => (readItems depth fuel false c).map fun (vs, c) => (v :: vs, c)

def readMembers (depth : Nat) : Nat → Bool → Cursor → Members → Except Error (Members × Cursor)
  | 0, _, c, _ => c.fail .endInObject
  | fuel + 1, first, c, acc =>
    match c.nextKey first with
    | .error e => .error e
    | .ok (false, c) => .ok (acc, c)
    | .ok (true, c) =>
      match c.advance.string with
      | .error e => .error e
      | .ok (key, c) =>
        match c.colon with
        | .error e => .error e
        | .ok c =>
          match read depth fuel c with
          | .error e => .error e
          | .ok (v, c) => readMembers depth fuel false c (acc.set key v)

end

end Value

namespace Cursor

/-- More than the number of steps that any value takes. -/
def enough (c : Cursor) : Nat := 2 * c.rest.length + 2

def value (depth : Nat) (c : Cursor) : Except Error (Value × Cursor) := Value.read depth c.enough c

def skipScalar (c : Cursor) : Except Error (Option Char × Cursor) :=
  match c.rest with
  | [] => c.refuse .endInValue
  | x :: _ =>
    if x = 'n' then (c.advance.word "ull".toList).map fun c => (none, c)
    else if x = 't' then (c.advance.word "rue".toList).map fun c => (none, c)
    else if x = 'f' then (c.advance.word "alse".toList).map fun c => (none, c)
    else if x = '-' then c.advance.skipNumber.map fun c => (none, c)
    else if Text.isDigit x then c.skipNumber.map fun c => (none, c)
    else if x = '"' then c.advance.skipString.map fun c => (none, c)
    else if x = '[' ∨ x = '\x7b' then .ok (some x, c.advance)
    else c.refuse .missingValue

def skipKey (c : Cursor) : Except Error Cursor :=
  let c := c.skipBlanks
  match c.rest with
  | [] => c.refuse .endInObject
  | '"' :: _ => do (← c.advance.skipString).colon
  | _ => c.refuse .keyNotString

/-- Closes collections as long as their ends follow one another, then goes on to the next part of
the innermost that is open. No frames are left where the value is complete. -/
def skipEnds : Nat → List Char → Bool → Cursor → Except Error (List Char × Cursor)
  | _, [], _, c => .ok ([], c)
  | 0, _, _, c => c.fail .endInValue
  | fuel + 1, frame :: outer, afterPart, c =>
    let c := c.skipBlanks
    let isArray := frame == '['
    match c.rest with
    | [] => c.refuse (if isArray then .endInArray else .endInObject)
    | x :: _ =>
      let next (c : Cursor) : Except Error (List Char × Cursor) :=
        if isArray then .ok (frame :: outer, c)
        else c.skipKey.map fun c => (frame :: outer, c)
      if x = ',' ∧ afterPart then next c.advance
      else if x = (if isArray then ']' else '\x7d') then skipEnds fuel outer true c.advance
      else if afterPart then c.refuse (if isArray then .missingArrayEnd else .missingObjectEnd)
      else next c

def skipLoop : Nat → List Char → Cursor → Except Error Cursor
  | 0, _, c => .ok c
  | fuel + 1, frames, c =>
    match c.skipBlanks.skipScalar with
    | .error e => .error e
    | .ok (opened, c) =>
      let (frames, afterPart) :=
        match opened with
        | some x => (x :: frames, false)
        | none => (frames, true)
      match skipEnds (c.rest.length + 1) frames afterPart c with
      | .error e => .error e
      | .ok ([], c) => .ok c
      | .ok (frames, c) => skipLoop fuel frames c

def skipValue (c : Cursor) : Except Error Cursor := skipLoop (c.rest.length + 1) [] c

end Cursor

end SearchRelay.Json
