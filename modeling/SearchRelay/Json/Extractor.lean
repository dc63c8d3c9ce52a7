import SearchRelay.Json.Decoder

namespace SearchRelay.Json

abbrev Extractor (α : Type) := Value → Except Mismatch α

namespace Extractor

variable {α σ : Type}

def text (expected : String) : Extractor String
  | .string s => .ok s
  | v => .error (.invalidType v.found expected)

def parsed (expected : String) (parse : String → Except Mismatch α) : Extractor α := fun v =>
  (text expected v).bind parse

def word : Extractor Nat
  | .number (.integer n) =>
    if 0 ≤ n then .ok n.toNat else .error (.invalidValue (.integer n) "u64")
  | v => .error (.invalidType v.found "u64")

def bool : Extractor Bool
  | .bool b => .ok b
  | v => .error (.invalidType v.found "a boolean")

def unit : Extractor Unit
  | .null => .ok ()
  | v => .error (.invalidType v.found "unit")

/-- One of several names, as a text or as the key of an object with the value null. -/
def variant (names : List (String × α)) : Extractor α := fun v =>
  let name (s : String) : Except Mismatch α :=
    match names.lookup s with
    | some a => .ok a
    | none => .error (.unknownVariant s (names.map Prod.fst))
  match v with
  | .string s => name s
  | .object [(s, v)] => (name s).bind fun a => (unit v).map fun _ => a
  | .object _ => .error (.invalidValue .mapping "map with a single key")
  | v => .error (.invalidType v.found "string or map")

structure Field (σ : Type) where
  name : String
  read : Extractor (σ → σ)

def field {β : Type} (name : String) (extractor : Extractor β) (set : β → σ → σ) : Field σ :=
  ⟨name, fun v => (extractor v).map set⟩

def items (expected : String) (count : Nat) :
    List (Field σ) → Nat → σ → List Value → Except Mismatch σ
  | [], _, value, [] => .ok value
  | [], i, _, r => .error (.invalidLength (i + r.length) "fewer elements in array")
  | _ :: _, i, _, [] =>
    .error (.invalidLength i s!"{expected} with {Decoder.plural count}")
  | f :: fs, i, value, v :: r =>
    match f.read v with
    | .error m => .error m
    | .ok set => items expected count fs (i + 1) (set value) r

def members (fields : List (Field σ)) :
    List String → σ → List (String × Value) → Except Mismatch σ
  | seen, value, [] =>
    match fields.find? fun f => !seen.contains f.name with
    | some f => .error (.missingField f.name)
    | none => .ok value
  | seen, value, (key, v) :: r =>
    match fields.find? fun f => f.name == key with
    | none => members fields (key :: seen) value r
    | some f =>
      if seen.contains key then .error (.duplicateField key)
      else
        match f.read v with
        | .error m => .error m
        | .ok set => members fields (key :: seen) (set value) r

def record (name : String) (fields : List (Field σ)) (blank : σ) : Extractor σ
  | .array vs => items ("struct " ++ name) fields.length fields 0 blank vs
  | .object ms => members fields [] blank ms
  | v => .error (.invalidType v.found ("struct " ++ name))

end Extractor

end SearchRelay.Json
