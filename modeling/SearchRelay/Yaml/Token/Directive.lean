import SearchRelay.Yaml.Token
import SearchRelay.Yaml.Token.Tag

namespace SearchRelay.Yaml.Directive

def versionNumber (start : Mark) (c : Cursor) : Except Fault (Nat × Cursor) :=
  let digits := c.takeWhile Text.isDigit
  if digits.isEmpty then c.fail .versionDirective start .missingVersionNumber
  else if 9 < digits.length then (c.advance 9).fail .versionDirective start .longVersionNumber
  else .ok ((Text.readNat? 10 digits).getD 0, c.advance digits.length)

def versionValue (start : Mark) (c : Cursor) : Except Fault (Lexeme × Cursor) := do
  let (major, c) ← versionNumber start (c.skipWhile isBlank)
  match c.rest with
  | '.' :: _ => do
    let (minor, c) ← versionNumber start (c.advance 1)
    pure (.version major minor, c)
  | _ => c.fail .versionDirective start .missingVersionDot

def tagValue (start : Mark) (c : Cursor) : Except Fault (Lexeme × Cursor) := do
  let (handle, c) ← Tag.handle true start (c.skipWhile isBlank)
  match c.rest with
  | x :: _ =>
    if !isBlank x then c.fail .tagDirective start .missingTagDirectiveBlank
    else
      let (replacement, c) ← Tag.uri true .tagDirectiveUri start [] (c.skipWhile isBlank)
      if atGap c.rest then
        pure (.tagDirective (String.ofList handle) (String.ofList replacement), c)
      else c.fail .tagDirective start .missingBlankOrLineEnd
  | [] => c.fail .tagDirective start .missingTagDirectiveBlank

def name (start : Mark) (c : Cursor) : Except Fault (List Char × Cursor) :=
  let text := c.takeWhile isWord
  let d := c.skipWhile isWord
  if text.isEmpty then d.fail .directive start .missingDirectiveName
  else if !atGap d.rest then d.fail .directive start .strangeDirectiveName
  else .ok (text, d)

def read (c : Cursor) : Except Fault (Token × Cursor) := do
  let start := c.mark
  let (word, c) ← name start (c.advance 1)
  let (lexeme, c) ← (
    if word = "YAML".toList then versionValue start c
    else if word = "TAG".toList then tagValue start c
    else c.fail .directive start .unknownDirective)
  let stop := c.mark
  let c := (c.skipWhile isBlank).skipComment
  if atLineEnd c.rest then pure (⟨lexeme, start, stop⟩, c.skipBreak)
  else c.fail .directive start .missingLineEnd

end SearchRelay.Yaml.Directive
