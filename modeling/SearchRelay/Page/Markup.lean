import SearchRelay.Json.Printer

/-!
Pages with places for texts. A text is written so that it cannot be taken for markup or for a part
of the script around it.
-/

namespace SearchRelay.Page

inductive Slot
  | title
  | controller
  | path
  deriving DecidableEq, Repr

inductive Piece
  | text (s : String)
  | value (slot : Slot)
  | script (slot : Slot)
  deriving DecidableEq, Repr

def escapeMarkup (c : Char) : List Char :=
  match c with
  | '<' => "&lt;".toList
  | '>' => "&gt;".toList
  | '&' => "&amp;".toList
  | '"' => "&quot;".toList
  | '\'' => "&#x27;".toList
  | '/' => "&#x2f;".toList
  | c => [c]

def markup (s : String) : String := String.ofList (s.toList.flatMap escapeMarkup)

/-- JSON knows each of these only inside of strings, where an escape means the same. -/
def escapeScript (c : Char) : List Char :=
  match c with
  | '<' => "\\u003c".toList
  | '>' => "\\u003e".toList
  | '&' => "\\u0026".toList
  | '\'' => "\\u0027".toList
  | c => [c]

def scriptString (s : String) : String :=
  String.ofList ((Json.quote s).toList.flatMap escapeScript)

inductive Error
  | template (reason : String)
  deriving DecidableEq, Repr

def Error.message : Error → String
  | .template r => s!"template error: {r}"

abbrev Context := List (Slot × String)

def Piece.render (context : Context) : Piece → Except Error String
  | .text s => .ok s
  | .value slot => fill markup slot
  | .script slot => fill scriptString slot
where
  fill (write : String → String) (slot : Slot) : Except Error String :=
    match List.lookup slot context with
    | some s => .ok (write s)
    | none => .error (.template "index render failed: undefined value")

def renderAll (context : Context) : List Piece → Except Error String
  | [] => .ok ""
  | p :: ps => do
    let s ← p.render context
    let r ← renderAll context ps
    pure (s ++ r)

end SearchRelay.Page
