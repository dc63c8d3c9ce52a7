import SearchRelay.Yaml.Token
import SearchRelay.Yaml.Token.Gap

namespace SearchRelay.Yaml.QuotedScalar

def simple? : Char → Option Char
  | '0' => some '\x00'
  | 'a' => some '\x07'
  | 'b' => some '\x08'
  | 't' => some '\t'
  | '\t' => some '\t'
  | 'n' => some '\n'
  | 'v' => some '\x0b'
  | 'f' => some '\x0c'
  | 'r' => some '\r'
  | 'e' => some '\x1b'
  | ' ' => some ' '
  | '"' => some '"'
  | '/' => some '/'
  | '\\' => some '\\'
  | 'N' => some '\u0085'
  | '_' => some '\u00a0'
  | 'L' => some '\u2028'
  | 'P' => some '\u2029'
  | _ => none

def hexLength? : Char → Option Nat
  | 'x' => some 2
  | 'u' => some 4
  | 'U' => some 8
  | _ => none

def hexEscape (start : Mark) (n : Nat) (c : Cursor) : Except Fault Char :=
  let digits := c.rest.take n
  match Text.natOfDigits? 16 digits 0 with
  | some value =>
    if digits.length < n then c.fail .escape start .missingHexDigit
    else if value.isValidChar then .ok (Char.ofNat value)
    else c.fail .escape start .invalidEscapeCode
  | none => c.fail .escape start .missingHexDigit

/-- Where a run of quoted text stopped; `broken` when it stopped behind an escaped line break. -/
structure Run where
  text : List Char
  cursor : Cursor
  broken : Bool

def singleRun (c : Cursor) (acc : List Char) : Run :=
  match _h : c.rest with
  | '\'' :: '\'' :: _ => singleRun (c.advance 2) ('\'' :: acc)
  | x :: _ =>
    if isBlank x || isBreak x || x == '\'' then ⟨acc, c, false⟩
    else singleRun (c.advance 1) (x :: acc)
  | [] => ⟨acc, c, false⟩
termination_by c.rest.length
decreasing_by all_goals exact Cursor.length_advance_lt _h _

def doubleRun (start : Mark) (c : Cursor) (acc : List Char) : Except Fault Run :=
  match _h : c.rest with
  | ['\\'] => c.fail .escape start .unknownEscape
  | '\\' :: e :: _ =>
    if isBreak e then .ok ⟨acc, (c.advance 1).skipBreak, true⟩
    else
      match simple? e, hexLength? e with
      | some y, _ => doubleRun start (c.advance 2) (y :: acc)
      | none, some n =>
        match hexEscape start n (c.advance 2) with
        | .error f => .error f
        | .ok y => doubleRun start (c.advance (n + 2)) (y :: acc)
      | none, none => c.fail .escape start .unknownEscape
  | x :: _ =>
    if isBlank x || isBreak x || x == '"' then .ok ⟨acc, c, false⟩
    else doubleRun start (c.advance 1) (x :: acc)
  | [] => .ok ⟨acc, c, false⟩
termination_by c.rest.length
decreasing_by all_goals exact Cursor.length_advance_lt _h _

/-- Reads up to the closing quote; a text that gives nothing more to read has no end. -/
def loop (single : Bool) (start : Mark) (c : Cursor) (acc : List Char) :
    Except Fault (List Char × Cursor) :=
  if c.atDocumentMark then c.fail .quotedScalar start .documentMarkInQuotes
  else
    match if single then .ok (singleRun c acc) else doubleRun start c acc with
    | .error e => .error e
    | .ok run =>
      if run.cursor.rest.head? == some (if single then '\'' else '"') then
        .ok (run.text, run.cursor.advance 1)
      else
        match Gap.read 0 .quotedScalar start run.cursor { broken := run.broken } with
        | .error e => .error e
        | .ok (gap, d) =>
          if d.rest.length < c.rest.length then
            loop single start d (gap.folded.reverse ++ run.text)
          else d.fail .quotedScalar start .endInQuotes
termination_by c.rest.length

def read (single : Bool) (c : Cursor) : Except Fault (Token × Cursor) :=
  match loop single c.mark (c.advance 1) [] with
  | .error e => .error e
  | .ok (text, d) =>
    .ok (⟨.scalar (String.ofList text.reverse) (if single then .singleQuoted else .doubleQuoted),
      c.mark, d.mark⟩, d)

end SearchRelay.Yaml.QuotedScalar
