import SearchRelay.Yaml.Cursor

namespace SearchRelay.Yaml

/-- Blanks and line breaks between two runs of a scalar. -/
structure Gap where
  blanks : List Char := []
  broken : Bool := false
  first : Option Char := none
  later : List Char := []
  deriving Repr

namespace Gap

/-- What a gap contributes to the text: one break folds into a space, more breaks lose one. -/
def folded (g : Gap) : List Char :=
  if !g.broken then g.blanks.reverse
  else
    match g.first with
    | some '\n' => if g.later.isEmpty then [' '] else g.later.reverse
    | some b => b :: g.later.reverse
    | none => g.later.reverse

def addBreak (g : Gap) (b : Char) : Gap :=
  if g.broken then { g with later := b :: g.later }
  else { g with blanks := [], broken := true, first := some b }

/-- Reads a gap. A tab left of `indent` on a continuation line is an error of `context`. -/
def read (indent : Nat) (context : Context) (start : Mark) (c : Cursor) (g : Gap) :
    Except Fault (Gap × Cursor) :=
  match _h : c.rest with
  | [] => .ok (g, c)
  | x :: _ =>
    if isBlank x then
      if g.broken then
        if x == '\t' && c.mark.column < indent then c.fail context start .tabInIndentation
        else read indent context start (c.advance 1) g
      else read indent context start (c.advance 1) { g with blanks := x :: g.blanks }
    else
      match _hb : c.crossBreak? with
      | none => .ok (g, c)
      | some (b, d) => read indent context start d (g.addBreak b)
termination_by c.rest.length
decreasing_by
  · exact Cursor.length_advance_lt _h 0
  · exact Cursor.length_advance_lt _h 0
  · exact Cursor.length_crossBreak?_lt _hb

end Gap

end SearchRelay.Yaml
