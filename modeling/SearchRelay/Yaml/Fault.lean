import SearchRelay.Text.Quoted
import SearchRelay.Yaml.Mark

namespace SearchRelay.Yaml

inductive Problem
  | controlCharacter
  | strayCharacter
  | missingColon
  | blockEntryNotAllowed
  | keyNotAllowed
  | valueNotAllowed
  | unknownDirective
  | missingDirectiveName
  | strangeDirectiveName
  | missingLineEnd
  | missingVersionDot
  | longVersionNumber
  | missingVersionNumber
  | missingTagDirectiveBlank
  | missingBlankOrLineEnd
  | missingAnchorName
  | missingTagClose
  | missingTagBang
  | missingTagUri
  | missingUriOctet
  | badLeadingOctet
  | badTrailingOctet
  | zeroIndentation
  | tabAsIndentation
  | documentMarkInQuotes
  | endInQuotes
  | unknownEscape
  | missingHexDigit
  | invalidEscapeCode
  | colonInFlow
  | tabInIndentation
  | missingDocumentStart
  | duplicateVersionDirective
  | incompatibleVersion
  | duplicateTagDirective
  | undefinedTagHandle
  | missingNode
  | missingBlockEntry
  | missingBlockKey
  | missingFlowSequenceEnd
  | missingFlowMappingEnd
  deriving DecidableEq, Repr

inductive Context
  | simpleKey
  | nextToken
  | directive
  | versionDirective
  | tagDirective
  | tagDirectiveHandle
  | tagDirectiveBang
  | tagDirectiveUri
  | anchor
  | reference
  | tag
  | tagUri
  | blockScalar
  | quotedScalar
  | escape
  | plainScalar
  | node
  | blockNode
  | flowNode
  | blockCollection
  | blockMapping
  | flowSequence
  | flowMapping
  deriving DecidableEq, Repr

inductive Layer
  | characters
  | tokens
  | events
  deriving DecidableEq, Repr

namespace Problem

def text : Problem → String
  | controlCharacter => "control characters are not allowed"
  | strayCharacter => "found character that cannot start any token"
  | missingColon => "could not find expected ':'"
  | blockEntryNotAllowed => "block sequence entries are not allowed in this context"
  | keyNotAllowed => "mapping keys are not allowed in this context"
  | valueNotAllowed => "mapping values are not allowed in this context"
  | unknownDirective => "found unknown directive name"
  | missingDirectiveName => "could not find expected directive name"
  | strangeDirectiveName => "found unexpected non-alphabetical character"
  | missingLineEnd => "did not find expected comment or line break"
  | missingVersionDot => "did not find expected digit or '.' character"
  | longVersionNumber => "found extremely long version number"
  | missingVersionNumber => "did not find expected version number"
  | missingTagDirectiveBlank => "did not find expected whitespace"
  | missingBlankOrLineEnd => "did not find expected whitespace or line break"
  | missingAnchorName => "did not find expected alphabetic or numeric character"
  | missingTagClose => "did not find the expected '>'"
  | missingTagBang => "did not find expected '!'"
  | missingTagUri => "did not find expected tag URI"
  | missingUriOctet => "did not find URI escaped octet"
  | badLeadingOctet => "found an incorrect leading UTF-8 octet"
  | badTrailingOctet => "found an incorrect trailing UTF-8 octet"
  | zeroIndentation => "found an indentation indicator equal to 0"
  | tabAsIndentation => "found a tab character where an indentation space is expected"
  | documentMarkInQuotes => "found unexpected document indicator"
  | endInQuotes => "found unexpected end of stream"
  | unknownEscape => "found unknown escape character"
  | missingHexDigit => "did not find expected hexdecimal number"
  | invalidEscapeCode => "found invalid Unicode character escape code"
  | colonInFlow => "found unexpected ':'"
  | tabInIndentation => "found a tab character that violates indentation"
  | missingDocumentStart => "did not find expected <document start>"
  | duplicateVersionDirective => "found duplicate %YAML directive"
  | incompatibleVersion => "found incompatible YAML document"
  | duplicateTagDirective => "found duplicate %TAG directive"
  | undefinedTagHandle => "found undefined tag handle"
  | missingNode => "did not find expected node content"
  | missingBlockEntry => "did not find expected '-' indicator"
  | missingBlockKey => "did not find expected key"
  | missingFlowSequenceEnd => "did not find expected ',' or ']'"
  | missingFlowMappingEnd => "did not find expected ',' or '\x7d'"

def layer : Problem → Layer
  | controlCharacter => .characters
  | missingDocumentStart | duplicateVersionDirective | incompatibleVersion
  | duplicateTagDirective | undefinedTagHandle | missingNode | missingBlockEntry
  | missingBlockKey | missingFlowSequenceEnd | missingFlowMappingEnd => .events
  | _ => .tokens

end Problem

namespace Context

def text : Context → String
  | simpleKey => "while scanning a simple key"
  | nextToken => "while scanning for the next token"
  | directive => "while scanning a directive"
  | versionDirective => "while scanning a %YAML directive"
  | tagDirective => "while scanning a %TAG directive"
  | tagDirectiveHandle => "while scanning a tag directive"
  | tagDirectiveBang => "while parsing a tag directive"
  | tagDirectiveUri => "while parsing a %TAG directive"
  | anchor => "while scanning an anchor"
  | reference => "while scanning an alias"
  | tag => "while scanning a tag"
  | tagUri => "while parsing a tag"
  | blockScalar => "while scanning a block scalar"
  | quotedScalar => "while scanning a quoted scalar"
  | escape => "while parsing a quoted scalar"
  | plainScalar => "while scanning a plain scalar"
  | node => "while parsing a node"
  | blockNode => "while parsing a block node"
  | flowNode => "while parsing a flow node"
  | blockCollection => "while parsing a block collection"
  | blockMapping => "while parsing a block mapping"
  | flowSequence => "while parsing a flow sequence"
  | flowMapping => "while parsing a flow mapping"

end Context

namespace Layer

def name : Layer → String
  | characters => "READER"
  | tokens => "SCANNER"
  | events => "PARSER"

end Layer

/-- A syntax error: the problem and its place, and what was being read since when. -/
structure Fault where
  problem : Problem
  mark : Mark
  /-- Octets before the problem, where there is no line to name. -/
  offset : Nat := 0
  context : Option (Context × Mark) := none
  deriving DecidableEq, Repr

namespace Fault

def message (f : Fault) : String :=
  let place :=
    if !f.mark.atOrigin then " at " ++ f.mark.place
    else if f.offset ≠ 0 then s!" at position {f.offset}"
    else ""
  let context :=
    match f.context with
    | none => ""
    | some (c, m) =>
      ", " ++ c.text ++ (if !m.atOrigin && !m.samePlace f.mark then " at " ++ m.place else "")
  f.problem.text ++ place ++ context

def details (f : Fault) : String :=
  let place :=
    if !f.mark.atOrigin then [s!"problem_mark: {f.mark.place}"]
    else if f.offset ≠ 0 then [s!"problem_offset: {f.offset}"]
    else []
  let context :=
    match f.context with
    | none => []
    | some (c, m) =>
      ["context: " ++ Text.Quoted.quote c.text] ++
        (if m.atOrigin then [] else [s!"context_mark: {m.place}"])
  let fields :=
    ["kind: " ++ f.problem.layer.name, "problem: " ++ Text.Quoted.quote f.problem.text] ++
      place ++ context
  "Error \x7b " ++ ", ".intercalate fields ++ " \x7d"

end Fault

end SearchRelay.Yaml
