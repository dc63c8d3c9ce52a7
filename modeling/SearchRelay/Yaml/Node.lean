import SearchRelay.Yaml.Event
import SearchRelay.Yaml.Scalar

/-!
The first document of a text as a tree. Where the text breaks off with a fault, so does the tree:
the fault then stands in place of the first node that is missing.
-/

namespace SearchRelay.Yaml

inductive Defect
  | syntactic (fault : Fault)
  | unknownAnchor (mark : Mark)
  deriving DecidableEq, Repr

inductive Node
  | scalar (mark : Mark) (value : Scalar)
  | sequence (mark : Mark) (items : List Node)
  | mapping (mark : Mark) (members : List (Node × Node))
  /-- Stands for the node with the anchor of a given number. -/
  | reference (slot : Nat)
  | absent
  | broken (defect : Defect)
  deriving Repr

namespace Node

mutual

def defect? : Node → Option Defect
  | .broken d => some d
  | .sequence _ items => defectOfItems? items
  | .mapping _ members => defectOfMembers? members
  | _ => none

def defectOfItems? : List Node → Option Defect
  | [] => none
  | n :: r => n.defect?.or (defectOfItems? r)

def defectOfMembers? : List (Node × Node) → Option Defect
  | [] => none
  | (k, v) :: r => (k.defect?.or v.defect?).or (defectOfMembers? r)

end

end Node

/-- A collection that is not yet closed, its parts last first. -/
inductive OpenNode
  | sequence (mark : Mark) (anchor : Option Nat) (items : List Node)
  | mapping (mark : Mark) (anchor : Option Nat) (members : List (Node × Node)) (key : Option Node)

/-- The numbers of anchors. A name that is used again gets the next free number without taking it
up, so a new name after it shares that number and takes its references over. -/
structure Anchors where
  slots : List (String × Nat) := []
  count : Nat := 0
  meaning : List (Nat × Nat) := []

namespace Anchors

def slot? (a : Anchors) (name : String) : Option Nat := a.slots.lookup name

def add (a : Anchors) (name : String) : Anchors :=
  let slot := a.slots.length
  { slots := (name, slot) :: a.slots.filter fun s => s.1 != name
    count := a.count + 1
    meaning := (slot, a.count) :: a.meaning }

end Anchors

structure Document where
  root : Node
  defect : Option Defect
  anchored : List (Nat × Node)
  anchors : Anchors
  continued : Bool

namespace Document

structure Building where
  stack : List OpenNode := []
  root : Option Node := none
  anchors : Anchors := {}
  anchored : List (Nat × Node) := []

namespace Building

def place (b : Building) (n : Node) : Building :=
  match b.stack with
  | [] => { b with root := some n }
  | .sequence m a items :: r => { b with stack := .sequence m a (n :: items) :: r }
  | .mapping m a members none :: r => { b with stack := .mapping m a members (some n) :: r }
  | .mapping m a members (some k) :: r =>
    { b with stack := .mapping m a ((k, n) :: members) none :: r }

def finish (b : Building) (anchor : Option Nat) (n : Node) : Building :=
  let b := b.place n
  match anchor with
  | some a => { b with anchored := (a, n) :: b.anchored }
  | none => b

def setAnchor (b : Building) : Option String → Option Nat × Building
  | none => (none, b)
  | some name => (some b.anchors.count, { b with anchors := b.anchors.add name })

def close (b : Building) : Building :=
  match b.stack with
  | [] => b
  | .sequence m a items :: r => { b with stack := r }.finish a (.sequence m items.reverse)
  | .mapping m a members _ :: r => { b with stack := r }.finish a (.mapping m members.reverse)

def breakOff (d : Defect) : List OpenNode → Building → Building
  | [], b => { b with root := some (b.root.getD (.broken d)) }
  | .sequence .. :: r, b => breakOff d r (b.place (.broken d)).close
  | .mapping _ _ _ key :: r, b =>
    let b := b.place (.broken d)
    breakOff d r (if key.isNone then (b.place (.broken d)).close else b.close)

def toDocument (b : Building) (defect : Option Defect) (continued : Bool) : Document :=
  match defect with
  | none => ⟨b.root.getD .absent, none, b.anchored, b.anchors, continued⟩
  | some d =>
    let b := breakOff d b.stack b
    ⟨b.root.getD (.broken d), some d, b.anchored, b.anchors, continued⟩

end Building

def build (fault : Option Fault) : List Event → Building → Document
  | [], b => b.toDocument (fault.map .syntactic) false
  | e :: r, b =>
    match e.happening with
    | .streamStart | .documentStart => build fault r b
    | .streamEnd => b.toDocument none false
    | .documentEnd =>
      let ended := r.head?.map (·.happening) == some .streamEnd
      b.toDocument none (!ended)
    | .reference name =>
      match b.anchors.slot? name with
      | some slot => build fault r (b.place (.reference slot))
      | none => b.toDocument (some (.unknownAnchor e.mark)) false
    | .scalar p text style =>
      let (a, b) := b.setAnchor p.anchor
      build fault r (b.finish a (.scalar e.mark ⟨p.tag, text, style⟩))
    | .sequenceStart p =>
      let (a, b) := b.setAnchor p.anchor
      build fault r { b with stack := .sequence e.mark a [] :: b.stack }
    | .mappingStart p =>
      let (a, b) := b.setAnchor p.anchor
      build fault r { b with stack := .mapping e.mark a [] none :: b.stack }
    | .sequenceEnd | .mappingEnd => build fault r b.close

/-- The characters that a document may hold. -/
def isAllowed (c : Char) : Bool :=
  let n := c.toNat
  n == 0x09 || n == 0x0a || n == 0x0d || (0x20 ≤ n && n ≤ 0x7e) || n == 0x85 ||
    (0xa0 ≤ n && n ≤ 0xd7ff) || (0xe000 ≤ n && n ≤ 0xfffd) || 0x10000 ≤ n

/-- The octets in front of the first character that is not allowed. -/
def forbidden? : List Char → Nat → Option Nat
  | [], _ => none
  | c :: r, n => if isAllowed c then forbidden? r (n + c.utf8Size) else some n

def ofString (text : String) : Document :=
  match forbidden? text.toList 0 with
  | some offset =>
    let d := Defect.syntactic ⟨.controlCharacter, .start, offset, none⟩
    ⟨.broken d, some d, [], {}, false⟩
  | none =>
    let s := EventStream.ofTokens (TokenStream.ofChars text.toList)
    build s.fault s.events {}

def resolve (d : Document) : Node → Node
  | .reference slot =>
    match d.anchors.meaning.lookup slot with
    | some a => (d.anchored.lookup a).getD .absent
    | none => .absent
  | n => n

end Document

end SearchRelay.Yaml
