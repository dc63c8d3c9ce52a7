import SearchRelay.Mismatch
import SearchRelay.Text.Decimal
import SearchRelay.Yaml.Token

namespace SearchRelay.Yaml

namespace Resolve

/-- Zeros in front of further digits make a text, not a number. -/
def hasLeadingZero (cs : List Char) : Bool :=
  let ds :=
    match cs with
    | '-' :: r => r
    | '+' :: r => r
    | r => r
  match ds with
  | '0' :: r => !r.isEmpty && r.all Text.isDigit
  | _ => false

def magnitude? (cs : List Char) : Option Nat :=
  match cs with
  | '0' :: 'x' :: r => Text.readNat? 16 r
  | '0' :: 'o' :: r => Text.readNat? 8 r
  | '0' :: 'b' :: r => Text.readNat? 2 r
  | r => if hasLeadingZero cs then none else Text.readNat? 10 r

def integer? : List Char → Option Int
  | '-' :: r => (magnitude? r).map fun n => -(n : Int)
  | '+' :: r => (magnitude? r).map fun n => (n : Int)
  | r => (magnitude? r).map fun n => (n : Int)

def integerFound? (cs : List Char) : Option Found :=
  match integer? cs with
  | none => none
  | some n =>
    if -(Nat.pow 2 63 : Int) ≤ n ∧ n < Nat.pow 2 64 then some (.integer n)
    else if -(Nat.pow 2 127 : Int) ≤ n ∧ n < Nat.pow 2 128 then some (.wide n)
    else none

/-- An unsigned integer of 64 bits, with at most a plus sign. -/
def unsigned? : List Char → Option Nat
  | '-' :: _ => none
  | cs =>
    match integer? cs with
    | some n => if n < Nat.pow 2 64 then some n.toNat else none
    | none => none

def float? (s : String) : Option Binary64 :=
  if [".inf", ".Inf", ".INF", "+.inf", "+.Inf", "+.INF"].contains s then some (.infinite false)
  else if ["-.inf", "-.Inf", "-.INF"].contains s then some (.infinite true)
  else if [".nan", ".NaN", ".NAN"].contains s then some .nan
  else
    match Text.Decimal.read? s.toList with
    | some d =>
      let x := Binary64.ofDecimal d.negative d.digits d.exponent
      if x.isFinite then some x else none
    | none => none

def bool? (s : String) : Option Bool :=
  if ["true", "True", "TRUE"].contains s then some true
  else if ["false", "False", "FALSE"].contains s then some false
  else none

def isNull (s : String) : Bool := ["null", "Null", "NULL", "~"].contains s

/-- What a plain scalar without a tag of its own holds. -/
def plain (s : String) : Found :=
  if s.isEmpty || isNull s then .unit
  else
    match bool? s, integerFound? s.toList with
    | some b, _ => .bool b
    | none, some n => n
    | none, none =>
      if hasLeadingZero s.toList then .text s
      else
        match float? s with
        | some x => .float x
        | none => .text s

end Resolve

/-- The tags of the core types; every other tag leaves a scalar as it is. -/
inductive CoreTag
  | bool
  | int
  | float
  | null
  deriving DecidableEq, Repr

namespace CoreTag

def name : CoreTag → String
  | bool => "tag:yaml.org,2002:bool"
  | int => "tag:yaml.org,2002:int"
  | float => "tag:yaml.org,2002:float"
  | null => "tag:yaml.org,2002:null"

def expectation : CoreTag → String
  | bool => "a boolean"
  | int => "an integer"
  | float => "a float"
  | null => "null"

def ofName? (s : String) : Option CoreTag := [bool, int, float, null].find? fun t => t.name == s

def found? (t : CoreTag) (s : String) : Option Found :=
  match t with
  | bool => (Resolve.bool? s).map .bool
  | int => Resolve.integerFound? s.toList
  | float => (Resolve.float? s).map .float
  | null => if Resolve.isNull s then some .unit else none

end CoreTag

structure Scalar where
  tag : Option String := none
  text : String
  style : Style
  deriving DecidableEq, Repr

namespace Scalar

def mismatch (s : Scalar) (expected : String) : Mismatch :=
  match s.tag with
  | none => .invalidType (if s.style = .plain then Resolve.plain s.text else .text s.text) expected
  | some tag =>
    match CoreTag.ofName? tag with
    | some t =>
      match t.found? s.text with
      | some found => .invalidType found expected
      | none => .invalidValue (.text s.text) t.expectation
    | none =>
      let isOwn := s.style = .plain ∧ tag.toList.head? = some '!'
      .invalidType (if isOwn then Resolve.plain s.text else .text s.text) expected

/-- Numbers are plain, or a literal block with the tag of integers. -/
def canBeInteger (s : Scalar) : Bool :=
  s.style == .plain || (s.style == .literal && s.tag == some CoreTag.int.name)

/-- A plain scalar without text stands for an empty collection. -/
def isVoid (s : Scalar) : Bool := s.style == .plain && s.text.isEmpty

end Scalar

end SearchRelay.Yaml
