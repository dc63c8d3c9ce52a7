import SearchRelay.Yaml.Node

namespace SearchRelay.Yaml

inductive Segment
  | key (name : String)
  | item (index : Nat)
  | unnamed
  deriving DecidableEq, Repr

namespace Segment

def text : Segment → String
  | key name => name
  | item index => s!"\\[{index}\\]"
  | unnamed => "?"

end Segment

/-- The way to a value, outermost step first. -/
abbrev Path := List Segment

inductive Error
  | defect (d : Defect)
  | mismatch (why : Mismatch) (path : Path) (mark : Mark)
  | continued
  deriving Repr

namespace Error

def placed (text : String) (m : Mark) : String :=
  if m.atOrigin then text else text ++ " at " ++ m.place

def located (why : Mismatch) (path : Path) : String :=
  if path.isEmpty then why.message .yaml
  else ".".intercalate (path.map Segment.text) ++ ": " ++ why.message .yaml

def message : Error → String
  | defect (.syntactic f) => f.message
  | defect (.unknownAnchor m) => placed "unknown anchor" m
  | mismatch why path m => placed (located why path) m
  | continued => "deserializing from YAML containing more than one document is not supported"

def record (text : String) : Option Mark → String
  | none => "Error(" ++ Text.Quoted.quote text ++ ")"
  | some m => s!"Error({Text.Quoted.quote text}, line: {m.line + 1}, column: {m.column + 1})"

def details : Error → String
  | defect (.syntactic f) => f.details
  | defect (.unknownAnchor m) => record "unknown anchor" (some m)
  | mismatch why path m => record (located why path) (some m)
  | continued => record continued.message none

end Error

abbrev Decoder (α : Type) := Document → Path → Node → Except Error α

namespace Decoder

variable {α σ : Type}

def unexpected (expected : String) (path : Path) : Node → Error
  | .scalar m s => .mismatch (s.mismatch expected) path m
  | .sequence m _ => .mismatch (.invalidType .sequence expected) path m
  | .mapping m _ => .mismatch (.invalidType .mapping expected) path m
  | .broken d => .defect d
  | _ => .mismatch (.invalidType .unit expected) path .start

def text (expected : String) : Decoder String := fun d path n =>
  match d.resolve n with
  | .scalar _ s => .ok s.text
  | n => .error (unexpected expected path n)

def unsigned (max : Nat) (expected : String) : Decoder Nat := fun d path n =>
  match d.resolve n with
  | .scalar m s =>
    match (if s.canBeInteger then Resolve.unsigned? s.text.toList else none) with
    | some k =>
      if k ≤ max then .ok k
      else .error (.mismatch (.invalidValue (.integer k) expected) path m)
    | none => .error (unexpected expected path (.scalar m s))
  | n => .error (unexpected expected path n)

def items (item : Decoder α) (d : Document) (path : Path) : Nat → List Node → Except Error (List α)
  | _, [] => .ok []
  | i, n :: r => do
    let a ← item d (path ++ [.item i]) n
    let as ← items item d path (i + 1) r
    pure (a :: as)

/-- A sequence, or nothing at all for the empty one. -/
def list (item : Decoder α) : Decoder (List α) := fun d path n =>
  match d.resolve n with
  | .sequence _ ns => items item d path 0 ns
  | .absent => .ok []
  | .scalar m s =>
    if s.isVoid then .ok [] else .error (unexpected "a sequence" path (.scalar m s))
  | n => .error (unexpected "a sequence" path n)

structure Field (σ : Type) where
  name : String
  read : Decoder (σ → σ)

def key (d : Document) (path : Path) (k : Node) : Except Error (String × Segment) := do
  let name ← text "field identifier" d path k
  pure (name, match k with | .scalar .. => .key name | _ => .unnamed)

/-- Reads the members of a section in turn. Unknown keys are passed over; a known one may stand
only once. -/
def members (fields : List (Field σ)) (d : Document) (path : Path) (m : Mark) :
    List (Node × Node) → List String → σ → Except Error σ
  | [], _, value => .ok value
  | (k, v) :: r, seen, value => do
    let (name, segment) ← key d path k
    match fields.find? fun f => f.name == name with
    | none =>
      match v.defect? with
      | some defect => .error (.defect defect)
      | none => members fields d path m r seen value
    | some f =>
      if seen.contains name then .error (.mismatch (.duplicateField name) path m)
      else
        let set ← f.read d (path ++ [segment]) v
        members fields d path m r (name :: seen) (set value)

/-- A section with its known fields; those that are left out keep their defaults. -/
def record (expected : String) (fields : List (Field σ)) (default : σ) : Decoder σ :=
  fun d path n =>
    match d.resolve n with
    | .mapping m ms => members fields d path m ms [] default
    | .absent => .ok default
    | .scalar m s =>
      if s.isVoid then .ok default else .error (unexpected expected path (.scalar m s))
    | n => .error (unexpected expected path n)

def run (decoder : Decoder α) (text : String) : Except Error α :=
  let d := Document.ofString text
  match decoder d [] d.root with
  | .error e => .error e
  | .ok a =>
    match d.defect with
    | some defect => .error (.defect defect)
    | none => if d.continued then .error .continued else .ok a

end Decoder

end SearchRelay.Yaml
