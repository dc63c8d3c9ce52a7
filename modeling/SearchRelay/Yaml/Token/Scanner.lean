import SearchRelay.Yaml.Token.BlockScalar
import SearchRelay.Yaml.Token.Directive
import SearchRelay.Yaml.Token.PlainScalar
import SearchRelay.Yaml.Token.QuotedScalar

/-!
Tokens of a document. A key of one line is only known as a key at its colon; until then its
token is held back, and the scanner remembers where the key would have to be put in.
-/

namespace SearchRelay.Yaml

/-- A token that may turn out to start a key. -/
structure PossibleKey where
  position : Nat
  mark : Mark
  /-- A block mapping cannot go on without this key. -/
  required : Bool
  deriving DecidableEq, Repr

structure Scanner where
  cursor : Cursor
  tokens : List Token := []
  count : Nat := 0
  /-- The column of the innermost block collection, negative outside all. -/
  indent : Int := -1
  outer : List Int := []
  /-- One entry for the block level and one for each open flow collection, innermost first. -/
  keys : List (Option PossibleKey) := [none]
  keyAllowed : Bool := true
  ending : Option Token := none
  deriving Repr

namespace Scanner

def mark (s : Scanner) : Mark := s.cursor.mark

def inFlow (s : Scanner) : Bool := 1 < s.keys.length

def push (s : Scanner) (t : Token) : Scanner :=
  { s with tokens := t :: s.tokens, count := s.count + 1 }

def insert (s : Scanner) (position : Nat) (t : Token) : Scanner :=
  let later := s.count - position
  { s with
    tokens := s.tokens.take later ++ t :: s.tokens.drop later
    count := s.count + 1 }

def keyFault (k : PossibleKey) (m : Mark) : Fault :=
  ⟨.missingColon, m, 0, some (.simpleKey, k.mark)⟩

def dropKey (s : Scanner) : Except Fault Scanner :=
  match s.keys with
  | some k :: r =>
    if k.required then .error (keyFault k s.mark) else .ok { s with keys := none :: r }
  | _ => .ok s

def noteKey (s : Scanner) : Except Fault Scanner :=
  if s.keyAllowed then do
    let s ← s.dropKey
    let required := !s.inFlow && s.indent == (s.mark.column : Int)
    pure { s with keys := some ⟨s.count, s.mark, required⟩ :: s.keys.tail }
  else .ok s

/-- A key ends on its line, within 1024 characters. -/
def isStale (m : Mark) (k : PossibleKey) : Bool :=
  k.mark.line < m.line || k.mark.index + 1024 < m.index

/-- Gives up the keys that the scanner has gone too far past, the outermost first. -/
def dropStaleKeys (s : Scanner) : Except Fault Scanner :=
  match (s.keys.reverse.filterMap id).find? fun k => isStale s.mark k && k.required with
  | some k => .error (keyFault k s.mark)
  | none => .ok { s with keys := s.keys.map fun k => k.filter fun k => !isStale s.mark k }

def openBlock (s : Scanner) (column position : Nat) (lexeme : Lexeme) (m : Mark) : Scanner :=
  if s.inFlow || (column : Int) ≤ s.indent then s
  else
    let s := s.insert position ⟨lexeme, m, m⟩
    { s with outer := s.indent :: s.outer, indent := column }

def closeBlocksLoop (column : Int) : List Int → Scanner → Scanner
  | [], s => s
  | i :: r, s =>
    if column < s.indent then
      closeBlocksLoop column r { s.push ⟨.blockEnd, s.mark, s.mark⟩ with indent := i, outer := r }
    else s

def closeBlocks (s : Scanner) (column : Int) : Scanner :=
  if s.inFlow then s else closeBlocksLoop column s.outer s

def pushIndicator (s : Scanner) (lexeme : Lexeme) (n : Nat) : Scanner :=
  let c := s.cursor.advance n
  { s.push ⟨lexeme, s.mark, c.mark⟩ with cursor := c }

/-- Tabs separate tokens except where they could be taken for indentation. -/
def isSeparator (s : Scanner) (c : Char) : Bool :=
  c == ' ' || ((s.inFlow || !s.keyAllowed) && c == '\t')

def skipToToken (s : Scanner) : Scanner :=
  let c := s.cursor
  let c := if c.mark.index == 0 && c.rest.head? == some '\ufeff' then c.advance 1 else c
  let c := (c.skipWhile s.isSeparator).skipComment
  match c.crossBreak? with
  | none => { s with cursor := c }
  | some (_, d) =>
    if d.rest.length < s.cursor.rest.length then
      skipToToken { s with cursor := d, keyAllowed := s.keyAllowed || !s.inFlow }
    else { s with cursor := d }
termination_by s.cursor.rest.length

def refuse (s : Scanner) (problem : Problem) : Except Fault Scanner :=
  .error ⟨problem, s.mark, 0, none⟩

/-- The end of the text closes everything on a line of its own. -/
def endStream (s : Scanner) : Except Fault Scanner := do
  let m := s.mark
  let m := if m.column = 0 then m else ⟨m.index, m.line + 1, 0⟩
  let s := { s with cursor := { s.cursor with mark := m } }
  let s ← (s.closeBlocks (-1)).dropKey
  pure { s with keyAllowed := false, ending := some ⟨.streamEnd, m, m⟩ }

def readDirective (s : Scanner) : Except Fault Scanner := do
  let s ← (s.closeBlocks (-1)).dropKey
  let (t, c) ← Directive.read s.cursor
  pure { s.push t with cursor := c, keyAllowed := false }

def readDocumentMark (s : Scanner) (lexeme : Lexeme) : Except Fault Scanner := do
  let s ← (s.closeBlocks (-1)).dropKey
  pure { s.pushIndicator lexeme 3 with keyAllowed := false }

def openFlow (s : Scanner) (lexeme : Lexeme) : Except Fault Scanner := do
  let s ← s.noteKey
  let s := s.pushIndicator lexeme 1
  pure { s with keys := none :: s.keys, keyAllowed := true }

def closeFlow (s : Scanner) (lexeme : Lexeme) : Except Fault Scanner := do
  let s ← s.dropKey
  let s := if s.inFlow then { s with keys := s.keys.tail } else s
  pure { s.pushIndicator lexeme 1 with keyAllowed := false }

def readFlowEntry (s : Scanner) : Except Fault Scanner := do
  let s ← s.dropKey
  pure { s.pushIndicator .flowEntry 1 with keyAllowed := true }

def readBlockEntry (s : Scanner) : Except Fault Scanner :=
  if !s.inFlow && !s.keyAllowed then s.refuse .blockEntryNotAllowed
  else do
    let s ← (s.openBlock s.mark.column s.count .blockSequenceStart s.mark).dropKey
    pure { s.pushIndicator .blockEntry 1 with keyAllowed := true }

def readKey (s : Scanner) : Except Fault Scanner :=
  if !s.inFlow && !s.keyAllowed then s.refuse .keyNotAllowed
  else do
    let s ← (s.openBlock s.mark.column s.count .blockMappingStart s.mark).dropKey
    pure { s.pushIndicator .key 1 with keyAllowed := !s.inFlow }

/-- A colon makes the possible key before it a key; without one the key is empty. -/
def readValue (s : Scanner) : Except Fault Scanner :=
  match s.keys with
  | some k :: r =>
    let s := s.insert k.position ⟨.key, k.mark, k.mark⟩
    let s := s.openBlock k.mark.column k.position .blockMappingStart k.mark
    .ok { s.pushIndicator .value 1 with keys := none :: r, keyAllowed := false }
  | _ =>
    if !s.inFlow && !s.keyAllowed then s.refuse .valueNotAllowed
    else
      let s := s.openBlock s.mark.column s.count .blockMappingStart s.mark
      .ok { s.pushIndicator .value 1 with keyAllowed := !s.inFlow }

def readName (s : Scanner) (context : Context) (lexeme : String → Lexeme) :
    Except Fault Scanner := do
  let s ← s.noteKey
  let c := s.cursor.advance 1
  let name := c.takeWhile isWord
  let d := c.skipWhile isWord
  let ended := atGap d.rest || d.rest.head?.any fun x => "?:,]\x7d%@`".toList.contains x
  if name.isEmpty || !ended then d.fail context s.mark .missingAnchorName
  else
    pure { s.push ⟨lexeme (String.ofList name), s.mark, d.mark⟩ with
      cursor := d, keyAllowed := false }

def readTag (s : Scanner) : Except Fault Scanner := do
  let s ← s.noteKey
  let (handle, suffix, c) ← Tag.read s.inFlow s.cursor
  pure { s.push ⟨.tag handle suffix, s.mark, c.mark⟩ with cursor := c, keyAllowed := false }

def readBlockScalar (s : Scanner) (literal : Bool) : Except Fault Scanner := do
  let s ← s.dropKey
  let (t, c) ← BlockScalar.read literal s.indent s.cursor
  pure { s.push t with cursor := c, keyAllowed := true }

def readQuotedScalar (s : Scanner) (single : Bool) : Except Fault Scanner := do
  let s ← s.noteKey
  let (t, c) ← QuotedScalar.read single s.cursor
  pure { s.push t with cursor := c, keyAllowed := false }

def readPlainScalar (s : Scanner) : Except Fault Scanner := do
  let s ← s.noteKey
  let (t, c, brokenAfter) ← PlainScalar.read s.inFlow (s.indent + 1).toNat s.cursor
  pure { s.push t with cursor := c, keyAllowed := brokenAfter }

/-- A plain scalar starts with no indicator, but for `-`, `?` and `:` in front of text. -/
def startsPlain (inFlow : Bool) (c : Char) (r : List Char) : Bool :=
  if c = '-' then !(r.head?.any isBlank)
  else if c = '?' || c = ':' then !inFlow && !atGap r
  else !isBlank c && !isBreak c && !",[]\x7b\x7d#&*!|>'\"%@`".toList.contains c

def step (s : Scanner) : Except Fault Scanner := do
  let s ← s.skipToToken.dropStaleKeys
  let s := s.closeBlocks s.mark.column
  match s.cursor.rest with
  | [] => s.endStream
  | c :: r =>
    if s.mark.column == 0 && c == '%' then s.readDirective
    else if s.cursor.atDocumentMark then
      s.readDocumentMark (if c = '-' then .documentStart else .documentEnd)
    else if c = '[' then s.openFlow .flowSequenceStart
    else if c = '\x7b' then s.openFlow .flowMappingStart
    else if c = ']' then s.closeFlow .flowSequenceEnd
    else if c = '\x7d' then s.closeFlow .flowMappingEnd
    else if c = ',' then s.readFlowEntry
    else if c == '-' && atGap r then s.readBlockEntry
    else if c == '?' && (s.inFlow || atGap r) then s.readKey
    else if c == ':' && (s.inFlow || atGap r) then s.readValue
    else if c = '*' then s.readName .reference .reference
    else if c = '&' then s.readName .anchor .anchor
    else if c = '!' then s.readTag
    else if c == '|' && !s.inFlow then s.readBlockScalar true
    else if c == '>' && !s.inFlow then s.readBlockScalar false
    else if c = '\'' then s.readQuotedScalar true
    else if c = '"' then s.readQuotedScalar false
    else if startsPlain s.inFlow c r then s.readPlainScalar
    else s.cursor.fail .nextToken s.mark .strayCharacter

/-- The tokens in front of every token that may still become a key. -/
def settled (s : Scanner) : List Token :=
  let limit := (s.keys.filterMap id).foldl (fun n k => min n k.position) s.count
  s.tokens.reverse.take limit

end Scanner

/-- The tokens of a text; after the last comes the end of the stream or a fault. -/
structure TokenStream where
  tokens : List Token
  ending : Except Fault Token

namespace TokenStream

def ofScanner : Nat → Scanner → TokenStream
  | 0, s => ⟨s.tokens.reverse, .ok ⟨.streamEnd, s.mark, s.mark⟩⟩
  | fuel + 1, s =>
    match s.ending with
    | some t => ⟨s.tokens.reverse, .ok t⟩
    | none =>
      match s.step >>= Scanner.dropStaleKeys with
      | .error e => ⟨s.settled, .error e⟩
      | .ok s => ofScanner fuel s

/-- Every step but the last takes a character, so their number is bounded. -/
def ofChars (cs : List Char) : TokenStream :=
  let first : Token := ⟨.streamStart, .start, .start⟩
  ofScanner (cs.length + 2) { cursor := ⟨cs, .start⟩, tokens := [first], count := 1 }

end TokenStream

end SearchRelay.Yaml
