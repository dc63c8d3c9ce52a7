import SearchRelay.Yaml.Token
import SearchRelay.Yaml.Token.Gap

namespace SearchRelay.Yaml.PlainScalar

/-- A colon that a flow collection would take for part of its own structure. -/
def isFlowColon : List Char → Bool
  | ':' :: x :: _ => isFlowIndicator x || x == '?'
  | _ => false

/-- A character that ends a run of plain text, given what follows it. -/
def ends (inFlow : Bool) (c : Char) (r : List Char) : Bool :=
  isBlank c || isBreak c || (c == ':' && atGap r) ||
    (inFlow && (isFlowIndicator c || isFlowColon (c :: r)))

def run (inFlow : Bool) : List Char → List Char
  | [] => []
  | c :: r => if ends inFlow c r then [] else c :: run inFlow r

/-- A plain scalar so far: its text, last character first, where it ends, and whether a line was
broken after it. -/
structure Piece where
  text : List Char
  stop : Mark
  brokenAfter : Bool

def loop (inFlow : Bool) (indent : Nat) (start : Mark) (c : Cursor) (gap : Gap) (p : Piece) :
    Except Fault (Piece × Cursor) :=
  if c.atDocumentMark || c.rest.head? == some '#' then .ok (p, c)
  else
    let text := run inFlow c.rest
    let d := c.advance text.length
    let p :=
      if text.isEmpty then p
      else ⟨text.reverse ++ (gap.folded.reverse ++ p.text), d.mark, false⟩
    let gap := if text.isEmpty then gap else {}
    if inFlow && isFlowColon d.rest then d.fail .plainScalar start .colonInFlow
    else
      match Gap.read indent .plainScalar start d gap with
      | .error e => .error e
      | .ok (gap, e) =>
        let p := { p with brokenAfter := gap.broken }
        if !inFlow && e.mark.column < indent then .ok (p, e)
        else if e.rest.length < d.rest.length ∧ e.rest.length < c.rest.length then
          loop inFlow indent start e gap p
        else .ok (p, e)
termination_by c.rest.length

def read (inFlow : Bool) (indent : Nat) (c : Cursor) : Except Fault (Token × Cursor × Bool) :=
  match loop inFlow indent c.mark c {} ⟨[], c.mark, false⟩ with
  | .error e => .error e
  | .ok (p, d) =>
    .ok (⟨.scalar (String.ofList p.text.reverse) .plain, c.mark, p.stop⟩, d, p.brokenAfter)

end SearchRelay.Yaml.PlainScalar
