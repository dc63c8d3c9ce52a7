import SearchRelay.Yaml.Token.Scanner

namespace SearchRelay.Yaml

structure Properties where
  anchor : Option String := none
  tag : Option String := none
  deriving DecidableEq, Repr

inductive Happening
  | streamStart
  | streamEnd
  | documentStart
  | documentEnd
  | reference (anchor : String)
  | scalar (properties : Properties) (text : String) (style : Style)
  | sequenceStart (properties : Properties)
  | sequenceEnd
  | mappingStart (properties : Properties)
  | mappingEnd
  deriving DecidableEq, Repr

structure Event where
  happening : Happening
  mark : Mark
  deriving DecidableEq, Repr

/-- What is expected next, and what is to follow once a node is complete. -/
inductive Expectation
  | stream
  | document (explicit : Bool)
  | documentContent
  | documentEnd
  | blockNode
  | blockEntry
  | indentlessEntry
  | blockKey
  | blockValue
  | flowEntry (first : Bool)
  | pairKey
  | pairValue
  | pairEnd
  | flowKey (first : Bool)
  | flowValue
  | flowNoValue
  | nothing
  deriving DecidableEq, Repr

structure EventReader where
  tokens : List Token
  ending : Except Fault Token
  expected : Expectation := .stream
  pending : List Expectation := []
  starts : List Mark := []
  tagDirectives : List (String × String) := []

namespace EventReader

abbrev Step := Except Fault (Event × EventReader)

def peek (r : EventReader) : Except Fault Token :=
  match r.tokens with
  | t :: _ => .ok t
  | [] => r.ending

def skip (r : EventReader) : EventReader := { r with tokens := r.tokens.tail }

/-- Goes on with what is expected after the node that is complete. -/
def resume (r : EventReader) : EventReader :=
  { r with expected := r.pending.head?.getD .nothing, pending := r.pending.tail }

def expect (r : EventReader) (e : Expectation) : EventReader := { r with expected := e }

def follow (r : EventReader) (e : Expectation) : EventReader := { r with pending := e :: r.pending }

def enter (r : EventReader) (m : Mark) : EventReader := { r with starts := m :: r.starts }

def leave (r : EventReader) : EventReader := { r with starts := r.starts.tail }

def emit (h : Happening) (m : Mark) (r : EventReader) : Step := .ok (⟨h, m⟩, r)

def emptyScalar (m : Mark) (r : EventReader) : Step := emit (.scalar {} "" .plain) m r

def failInside {α : Type} (r : EventReader) (context : Context) (problem : Problem) (m : Mark) :
    Except Fault α :=
  .error ⟨problem, m, 0, some (context, r.starts.head?.getD .start)⟩

def failAt {α : Type} (problem : Problem) (m : Mark) : Except Fault α :=
  .error ⟨problem, m, 0, none⟩

def directives (version : Bool) (tags : List (String × String)) :
    List Token → Except Fault (List (String × String) × List Token)
  | ⟨.version major minor, m, _⟩ :: r =>
    if version then failAt .duplicateVersionDirective m
    else if major ≠ 1 ∨ (minor ≠ 1 ∧ minor ≠ 2) then failAt .incompatibleVersion m
    else directives true tags r
  | ⟨.tagDirective handle replacement, m, _⟩ :: r =>
    if tags.any fun t => t.1 == handle then failAt .duplicateTagDirective m
    else directives version (tags ++ [(handle, replacement)]) r
  | ts => .ok (tags, ts)

def defaultTags : List (String × String) := [("!", "!"), ("!!", "tag:yaml.org,2002:")]

def isDirective : Lexeme → Bool
  | .version .. | .tagDirective .. => true
  | _ => false

def skipDocumentEnds : List Token → List Token
  | ⟨.documentEnd, _, _⟩ :: r => skipDocumentEnds r
  | ts => ts

def document (explicit : Bool) (r : EventReader) : Step := do
  let r := if explicit then { r with tokens := skipDocumentEnds r.tokens } else r
  let t ← r.peek
  if t.lexeme = .streamEnd then emit .streamEnd t.start (r.expect .nothing)
  else if !explicit && t.lexeme != .documentStart && !isDirective t.lexeme then
    emit .documentStart t.start
      (({ r with tagDirectives := defaultTags }.follow .documentEnd).expect .blockNode)
  else
    let (tags, tokens) ← directives false [] r.tokens
    let r := { r with tokens, tagDirectives := tags ++ defaultTags }
    let first ← r.peek
    if first.lexeme = .documentStart then
      emit .documentStart t.start ((r.skip.follow .documentEnd).expect .documentContent)
    else failAt .missingDocumentStart first.start

def resolveTag (tags : List (String × String)) (handle suffix : String) : Option String :=
  if handle.isEmpty then some suffix
  else (tags.find? fun t => t.1 == handle).map fun t => t.2 ++ suffix

structure NodeHead where
  anchor : Option String := none
  tag : Option (String × String × Mark) := none
  start : Mark

def nodeHead (r : EventReader) : Except Fault (NodeHead × EventReader) := do
  let t ← r.peek
  match t.lexeme with
  | .anchor a =>
    let r := r.skip
    let u ← r.peek
    match u.lexeme with
    | .tag h s => pure (⟨some a, some (h, s, u.start), t.start⟩, r.skip)
    | _ => pure (⟨some a, none, t.start⟩, r)
  | .tag h s =>
    let r := r.skip
    let u ← r.peek
    match u.lexeme with
    | .anchor a => pure (⟨some a, some (h, s, t.start), t.start⟩, r.skip)
    | _ => pure (⟨none, some (h, s, t.start), t.start⟩, r)
  | _ => pure (⟨none, none, t.start⟩, r)

/-- One node. In a mapping, a sequence may stand without more indentation. -/
def node (block indentless : Bool) (r : EventReader) : Step := do
  let t ← r.peek
  match t.lexeme with
  | .reference name => emit (.reference name) t.start r.skip.resume
  | _ =>
    let (head, r) ← nodeHead r
    let tag ← (
      match head.tag with
      | none => pure none
      | some (h, s, m) =>
        match resolveTag r.tagDirectives h s with
        | some tag => pure (some tag)
        | none => .error ⟨.undefinedTagHandle, m, 0, some (.node, head.start)⟩)
    let properties : Properties := ⟨head.anchor, tag⟩
    let t ← r.peek
    let start (h : Happening) (e : Expectation) : Step := emit h head.start (r.expect e)
    match t.lexeme, block, indentless with
    | .blockEntry, _, true => start (.sequenceStart properties) .indentlessEntry
    | .scalar text style, _, _ =>
      let tag := if tag = some "!" then none else tag
      emit (.scalar ⟨head.anchor, tag⟩ text style) head.start r.skip.resume
    | .flowSequenceStart, _, _ =>
      emit (.sequenceStart properties) head.start ((r.skip.enter t.start).expect (.flowEntry true))
    | .flowMappingStart, _, _ =>
      emit (.mappingStart properties) head.start ((r.skip.enter t.start).expect (.flowKey true))
    | .blockSequenceStart, true, _ =>
      emit (.sequenceStart properties) head.start ((r.skip.enter t.start).expect .blockEntry)
    | .blockMappingStart, true, _ =>
      emit (.mappingStart properties) head.start ((r.skip.enter t.start).expect .blockKey)
    | _, _, _ =>
      if head.anchor.isSome || tag.isSome then
        emit (.scalar properties "" .plain) head.start r.resume
      else
        let activity := if block then .blockNode else .flowNode
        .error ⟨.missingNode, t.start, 0, some (activity, head.start)⟩

def documentContent (r : EventReader) : Step := do
  let t ← r.peek
  match t.lexeme with
  | .version .. | .tagDirective .. | .documentStart | .documentEnd | .streamEnd =>
    emptyScalar t.start r.resume
  | _ => node true false r

def documentEnd (r : EventReader) : Step := do
  let t ← r.peek
  let r := if t.lexeme = .documentEnd then r.skip else r
  emit .documentEnd t.start (r.expect (.document true))

/-- The node after an indicator, or an empty one where none of `stops` may start it. -/
def nodeAfter (r : EventReader) (indicator : Token) (stops : List Lexeme) (next : Expectation)
    (block indentless : Bool) : Step := do
  let t ← r.peek
  if stops.contains t.lexeme then emptyScalar indicator.stop (r.expect next)
  else node block indentless (r.follow next)

def blockEntry (r : EventReader) : Step := do
  let t ← r.peek
  match t.lexeme with
  | .blockEntry => nodeAfter r.skip t [.blockEntry, .blockEnd] .blockEntry true false
  | .blockEnd => emit .sequenceEnd t.start r.skip.leave.resume
  | _ => r.failInside .blockCollection .missingBlockEntry t.start

def indentlessEntry (r : EventReader) : Step := do
  let t ← r.peek
  match t.lexeme with
  | .blockEntry =>
    nodeAfter r.skip t [.blockEntry, .key, .value, .blockEnd] .indentlessEntry true false
  | _ => emit .sequenceEnd t.start r.resume

def blockKey (r : EventReader) : Step := do
  let t ← r.peek
  match t.lexeme with
  | .key => nodeAfter r.skip t [.key, .value, .blockEnd] .blockValue true true
  | .blockEnd => emit .mappingEnd t.start r.skip.leave.resume
  | _ => r.failInside .blockMapping .missingBlockKey t.start

def blockValue (r : EventReader) : Step := do
  let t ← r.peek
  match t.lexeme with
  | .value => nodeAfter r.skip t [.key, .value, .blockEnd] .blockKey true true
  | _ => emptyScalar t.start (r.expect .blockKey)

def separator (first : Bool) (last : Lexeme) (context : Context) (problem : Problem)
    (r : EventReader) : Except Fault EventReader := do
  let t ← r.peek
  if first || t.lexeme == last then pure r
  else if t.lexeme = .flowEntry then pure r.skip
  else r.failInside context problem t.start

def flowEntry (first : Bool) (r : EventReader) : Step := do
  let r ← separator first .flowSequenceEnd .flowSequence .missingFlowSequenceEnd r
  let t ← r.peek
  match t.lexeme with
  | .flowSequenceEnd => emit .sequenceEnd t.start r.skip.leave.resume
  | .key => emit (.mappingStart {}) t.start (r.skip.expect .pairKey)
  | _ => node false false (r.follow (.flowEntry false))

/-- The key of a pair that stands in a sequence; an absent one takes the next indicator with it. -/
def pairKey (r : EventReader) : Step := do
  let t ← r.peek
  match t.lexeme with
  | .value | .flowEntry | .flowSequenceEnd => emptyScalar t.stop (r.skip.expect .pairValue)
  | _ => node false false (r.follow .pairValue)

def valueIn (r : EventReader) (stops : List Lexeme) (next : Expectation) : Step := do
  let t ← r.peek
  match t.lexeme with
  | .value =>
    let r := r.skip
    let u ← r.peek
    if stops.contains u.lexeme then emptyScalar u.start (r.expect next)
    else node false false (r.follow next)
  | _ => emptyScalar t.start (r.expect next)

def pairEnd (r : EventReader) : Step := do
  let t ← r.peek
  emit .mappingEnd t.start (r.expect (.flowEntry false))

def flowKey (first : Bool) (r : EventReader) : Step := do
  let r ← separator first .flowMappingEnd .flowMapping .missingFlowMappingEnd r
  let t ← r.peek
  match t.lexeme with
  | .flowMappingEnd => emit .mappingEnd t.start r.skip.leave.resume
  | .key =>
    let r := r.skip
    let u ← r.peek
    if [Lexeme.value, .flowEntry, .flowMappingEnd].contains u.lexeme then
      emptyScalar u.start (r.expect .flowValue)
    else node false false (r.follow .flowValue)
  | _ => node false false (r.follow .flowNoValue)

def flowNoValue (r : EventReader) : Step := do
  let t ← r.peek
  emptyScalar t.start (r.expect (.flowKey false))

def stream (r : EventReader) : Step := do
  let t ← r.peek
  emit .streamStart t.start (r.skip.expect (.document false))

def step (r : EventReader) : Step :=
  match r.expected with
  | .stream => stream r
  | .document explicit => document explicit r
  | .documentContent => documentContent r
  | .documentEnd => documentEnd r
  | .blockNode => node true false r
  | .blockEntry => blockEntry r
  | .indentlessEntry => indentlessEntry r
  | .blockKey => blockKey r
  | .blockValue => blockValue r
  | .flowEntry first => flowEntry first r
  | .pairKey => pairKey r
  | .pairValue => valueIn r [.flowEntry, .flowSequenceEnd] .pairEnd
  | .pairEnd => pairEnd r
  | .flowKey first => flowKey first r
  | .flowValue => valueIn r [.flowEntry, .flowMappingEnd] (.flowKey false)
  | .flowNoValue => flowNoValue r
  | .nothing => emit .streamEnd .start r

end EventReader

/-- The events of a text, up to its end or to the first fault. -/
structure EventStream where
  events : List Event
  fault : Option Fault
  deriving Repr

namespace EventStream

def ofReader : Nat → EventReader → List Event → EventStream
  | 0, _, acc => ⟨acc.reverse, none⟩
  | fuel + 1, r, acc =>
    if r.expected = .nothing then ⟨acc.reverse, none⟩
    else
      match r.step with
      | .error f => ⟨acc.reverse, some f⟩
      | .ok (e, r) => ofReader fuel r (e :: acc)

/-- At most three events come between two tokens, so their number is bounded. -/
def ofTokens (ts : TokenStream) : EventStream :=
  ofReader (4 * ts.tokens.length + 8) { tokens := ts.tokens, ending := ts.ending } []

end EventStream

end SearchRelay.Yaml
