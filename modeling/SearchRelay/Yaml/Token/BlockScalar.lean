import SearchRelay.Yaml.Token
import SearchRelay.Yaml.Cursor

namespace SearchRelay.Yaml.BlockScalar

/-- What becomes of the line breaks at the end of a block scalar. -/
inductive Chomping
  | strip
  | clip
  | keep
  deriving DecidableEq, Repr

def chomping? : List Char → Option Chomping
  | '+' :: _ => some .keep
  | '-' :: _ => some .strip
  | _ => none

def header (start : Mark) (c : Cursor) : Except Fault (Chomping × Nat × Cursor) :=
  let digit (c : Cursor) : Except Fault (Nat × Cursor) :=
    match c.rest with
    | x :: _ =>
      if x = '0' then c.fail .blockScalar start .zeroIndentation
      else if Text.isDigit x then .ok (x.toNat - 48, c.advance 1)
      else .ok (0, c)
    | [] => .ok (0, c)
  match chomping? c.rest with
  | some k => do
    let (n, d) ← digit (c.advance 1)
    pure (k, n, d)
  | none => do
    let (n, d) ← digit c
    match (if n = 0 then none else chomping? d.rest) with
    | some k => pure (k, n, d.advance 1)
    | none => pure (.clip, n, d)

/-- The empty lines before a line of content. -/
structure Lead where
  cursor : Cursor
  breaks : List Char
  widest : Nat
  stop : Mark

/-- Reads empty lines and indentation; an indentation of zero is still to be found. -/
def lead (indent : Nat) (start : Mark) (c : Cursor) (breaks : List Char) (widest : Nat)
    (stop : Mark) : Except Fault Lead :=
  let spaces := (c.rest.takeWhile (· == ' ')).length
  let d := c.advance (if indent = 0 then spaces else min spaces (indent - c.mark.column))
  let widest := max widest d.mark.column
  if (indent == 0 || d.mark.column < indent) && d.rest.head? == some '\t' then
    d.fail .blockScalar start .tabAsIndentation
  else
    match _h : d.crossBreak? with
    | none => .ok ⟨d, breaks, widest, stop⟩
    | some (b, e) => lead indent start e (b :: breaks) widest e.mark
termination_by c.rest.length
decreasing_by
  exact Nat.lt_of_lt_of_le (Cursor.length_crossBreak?_lt _h) (Cursor.length_advance_le _ _)

/-- The text of a block scalar so far, last character first. -/
structure Body where
  text : List Char
  ending : List Char
  empties : List Char
  indented : Bool
  cursor : Cursor
  stop : Mark

def lines (literal : Bool) (indent : Nat) (start : Mark) (b : Body) : Except Fault Body :=
  match b.cursor.rest with
  | [] => .ok b
  | x :: _ =>
    if b.cursor.mark.column ≠ indent then .ok b
    else
      let indented := isBlank x
      let folds := !literal && b.ending.head? == some '\n' && !b.indented && !indented
      let joint := if folds then (if b.empties.isEmpty then [' '] else []) else b.ending
      let content := b.cursor.takeWhile fun x => !isBreak x
      let text := content.reverse ++ (b.empties ++ (joint ++ b.text))
      let c := b.cursor.skipLine
      let (ending, c) :=
        match c.crossBreak? with
        | some (e, d) => ([e], d)
        | none => ([], c)
      match lead indent start c [] 0 c.mark with
      | .error e => .error e
      | .ok l =>
        if l.cursor.rest.length < b.cursor.rest.length then
          lines literal indent start ⟨text, ending, l.breaks, indented, l.cursor, l.stop⟩
        else .ok b
termination_by b.cursor.rest.length

/-- A block scalar inside a collection of the given indentation, which is negative outside all. -/
def read (literal : Bool) (parent : Int) (c : Cursor) : Except Fault (Token × Cursor) := do
  let start := c.mark
  let (chomping, increment, c) ← header start (c.advance 1)
  let c := (c.skipWhile isBlank).skipComment
  if !atLineEnd c.rest then c.fail .blockScalar start .missingLineEnd
  else
    let c := c.skipBreak
    let known := if increment = 0 then 0 else parent.toNat + increment
    let l ← lead known start c [] 0 c.mark
    let indent := if known = 0 then max l.widest (max (parent + 1).toNat 1) else known
    let b ← lines literal indent start ⟨[], [], l.breaks, false, l.cursor, l.stop⟩
    let text :=
      match chomping with
      | .strip => b.text
      | .clip => b.ending ++ b.text
      | .keep => b.empties ++ (b.ending ++ b.text)
    pure (⟨.scalar (String.ofList text.reverse) (if literal then .literal else .folded),
      start, b.stop⟩, b.cursor)

end SearchRelay.Yaml.BlockScalar
