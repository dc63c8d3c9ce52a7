import SearchRelay.Text.Numeral
import SearchRelay.Yaml.Fault

namespace SearchRelay.Yaml

def isBreak (c : Char) : Bool :=
  c == '\n' || c == '\r' || c == '\u0085' || c == '\u2028' || c == '\u2029'

def isBlank (c : Char) : Bool := c == ' ' || c == '\t'

/-- The characters of anchor names, tag handles and directive names. -/
def isWord (c : Char) : Bool := c.isAlphanum || c == '_' || c == '-'

def isFlowIndicator (c : Char) : Bool :=
  c == ',' || c == '[' || c == ']' || c == '\x7b' || c == '\x7d'

def atGap : List Char → Bool
  | [] => true
  | c :: _ => isBlank c || isBreak c

def atLineEnd : List Char → Bool
  | [] => true
  | c :: _ => isBreak c

structure Cursor where
  rest : List Char
  mark : Mark
  deriving DecidableEq, Repr

namespace Cursor

def advance (c : Cursor) (n : Nat) : Cursor :=
  ⟨c.rest.drop n, ⟨c.mark.index + n, c.mark.line, c.mark.column + n⟩⟩

/-- Steps over one line break and says how it reads; only the Unicode separators are kept. -/
def crossBreak? (c : Cursor) : Option (Char × Cursor) :=
  match c.rest with
  | '\r' :: '\n' :: r => some ('\n', ⟨r, ⟨c.mark.index + 2, c.mark.line + 1, 0⟩⟩)
  | b :: r =>
    if isBreak b then
      some (if b == '\u2028' || b == '\u2029' then b else '\n',
        ⟨r, ⟨c.mark.index + 1, c.mark.line + 1, 0⟩⟩)
    else none
  | [] => none

def skipBreak (c : Cursor) : Cursor :=
  match c.crossBreak? with
  | some (_, d) => d
  | none => c

def takeWhile (c : Cursor) (p : Char → Bool) : List Char := c.rest.takeWhile p

def skipWhile (c : Cursor) (p : Char → Bool) : Cursor := c.advance (c.rest.takeWhile p).length

def skipLine (c : Cursor) : Cursor := c.skipWhile fun x => !isBreak x

def skipComment (c : Cursor) : Cursor :=
  match c.rest with
  | '#' :: _ => c.skipLine
  | _ => c

/-- A line that starts with `---` or `...` and goes on with a gap. -/
def atDocumentMark (c : Cursor) : Bool :=
  c.mark.column == 0 &&
    match c.rest with
    | '-' :: '-' :: '-' :: r => atGap r
    | '.' :: '.' :: '.' :: r => atGap r
    | _ => false

def fail {α : Type} (c : Cursor) (context : Context) (start : Mark) (problem : Problem) :
    Except Fault α :=
  .error ⟨problem, c.mark, 0, some (context, start)⟩

theorem length_advance_le (c : Cursor) (n : Nat) : (c.advance n).rest.length ≤ c.rest.length := by
  simp [advance]

theorem length_advance_lt {c : Cursor} {x : Char} {r : List Char} (h : c.rest = x :: r) (n : Nat) :
    (c.advance (n + 1)).rest.length < c.rest.length := by
  simp only [advance, h, List.length_drop, List.length_cons]
  omega

theorem length_crossBreak?_lt {c d : Cursor} {b : Char} (h : c.crossBreak? = some (b, d)) :
    d.rest.length < c.rest.length := by
  unfold crossBreak? at h
  split at h
  · rename_i r hr
    obtain ⟨-, rfl⟩ := by simpa using h
    simp only [hr, List.length_cons]
    omega
  · rename_i x r hx hr
    split at h
    · obtain ⟨-, rfl⟩ := by simpa using h
      simp only [hr, List.length_cons]
      omega
    · simp at h
  · simp at h

end Cursor

end SearchRelay.Yaml
