import SearchRelay.Binary64.Format
import SearchRelay.Text.Quoted

namespace SearchRelay

inductive Found
  | bool (value : Bool)
  | integer (value : Int)
  /-- An integer past 64 bits, named after the width that holds it. -/
  | wide (value : Int)
  | float (value : Binary64)
  | text (value : String)
  | unit
  | sequence
  | mapping
  | unitVariant
  deriving DecidableEq, Repr

inductive Mismatch
  | invalidType (found : Found) (expected : String)
  | invalidValue (found : Found) (expected : String)
  | invalidLength (length : Nat) (expected : String)
  | missingField (name : String)
  | duplicateField (name : String)
  | unknownVariant (name : String) (allowed : List String)
  | custom (text : String)
  deriving DecidableEq, Repr

/-- How a document format names the values on which formats differ. -/
structure Wording where
  unit : String
  float : Binary64.Style

namespace Wording

def yaml : Wording := ⟨"unit value", .plain⟩
def json : Wording := ⟨"null", .scientific⟩

end Wording

namespace Found

def describe (w : Wording) : Found → String
  | bool b => s!"boolean `{b}`"
  | integer n => s!"integer `{n}`"
  | wide n => s!"integer `{n}` as " ++ (if n < 0 then "i128" else "u128")
  | float x => s!"floating point `{x.format w.float}`"
  | text s => "string " ++ Text.Quoted.quote s
  | unit => w.unit
  | sequence => "sequence"
  | mapping => "map"
  | unitVariant => "unit variant"

end Found

namespace Mismatch

def oneOf : List String → String
  | [] => "there are no variants"
  | [a] => s!"expected `{a}`"
  | [a, b] => s!"expected `{a}` or `{b}`"
  | names => "expected one of " ++ ", ".intercalate (names.map fun n => s!"`{n}`")

def message (w : Wording) : Mismatch → String
  | invalidType found expected => s!"invalid type: {found.describe w}, expected {expected}"
  | invalidValue found expected => s!"invalid value: {found.describe w}, expected {expected}"
  | invalidLength n expected => s!"invalid length {n}, expected {expected}"
  | missingField name => s!"missing field `{name}`"
  | duplicateField name => s!"duplicate field `{name}`"
  | unknownVariant name allowed => s!"unknown variant `{name}`, {oneOf allowed}"
  | custom text => text

end Mismatch

end SearchRelay
