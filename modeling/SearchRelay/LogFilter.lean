import SearchRelay.Log
import SearchRelay.Text.Blank
import SearchRelay.Text.Numeral

/-!
Which lines of a log are shown. A filter is a list of directives: a level for everything, a target
for which everything is shown, or a level for a target. The longest target decides.
-/

namespace SearchRelay

inductive LogSource
  | program
  | bootstrap
  | core
  | web
  deriving DecidableEq, Repr

namespace LogSource

def target : LogSource → String
  | program => "cedar_engine"
  | bootstrap => "cedar_engine::bootstrap"
  | core => "cedar_core"
  | web => "cedar_web"

end LogSource

structure LogRecord where
  source : LogSource
  entry : LogEntry
  deriving DecidableEq, Repr

namespace LogRecord

def line (r : LogRecord) : String := s!"{r.entry.level.name} {r.source.target}: {r.entry.body}"

end LogRecord

namespace LogLevel

/-- Zero for no line at all, then one more for each level. -/
def rank : LogLevel → Nat
  | error => 1
  | warn => 2
  | info => 3
  | debug => 4
  | trace => 5

end LogLevel

namespace LogFilter

def offRank : Nat := 0

def rank? (s : String) : Option Nat :=
  match Text.readBounded 5 s with
  | .ok n => some n
  | .error _ =>
    [("off", offRank), ("error", 1), ("warn", 2), ("info", 3), ("debug", 4), ("trace", 5)].lookup
      (s.map Char.toLower)

structure Directive where
  /-- What the target of a line starts with; none for all lines. -/
  target : Option String
  rank : Nat
  /-- A directive for a span says nothing about lines outside of spans. -/
  inSpan : Bool := false
  deriving DecidableEq, Repr

inductive ParseError
  | invalidDirective
  | invalidLevel
  deriving DecidableEq, Repr

namespace ParseError

def message : ParseError → String
  | invalidDirective => "invalid filter directive"
  | invalidLevel =>
    "error parsing level filter: expected one of \"off\", \"error\", \"warn\", \"info\", " ++
      "\"debug\", \"trace\", or a number 0-5"

end ParseError

def canStart (c : Char) : Bool :=
  c == '-' || c == ':' || c == '_' || c.isAlphanum || 0x80 ≤ c.toNat

def levelBehind (cs : List Char) : Except ParseError Nat :=
  if cs.isEmpty then .ok LogLevel.trace.rank
  else
    match rank? (String.ofList cs) with
    | some n => .ok n
    | none => .error .invalidLevel

def behindSpan (cs : List Char) : Except ParseError Nat :=
  match cs.dropWhile (· != ']') with
  | ']' :: '=' :: level => levelBehind level
  | [']'] => .ok LogLevel.trace.rank
  | _ => .error .invalidDirective

def Directive.parse (s : String) : Except ParseError Directive :=
  let cs := Text.trimList Text.isBlank s.toList
  let name := cs.takeWhile fun c => c != '=' && c != '['
  match cs, cs.drop name.length with
  | '[' :: r, _ => (behindSpan r).map fun n => ⟨none, n, true⟩
  | c :: _, rest =>
    if canStart c then
      match rest with
      | '=' :: level => (levelBehind level).map fun n => ⟨some (String.ofList name), n, false⟩
      | '[' :: span => (behindSpan span).map fun n => ⟨some (String.ofList name), n, true⟩
      | _ =>
        match rank? (String.ofList name) with
        | some n => .ok ⟨none, n, false⟩
        | none => .ok ⟨some (String.ofList name), LogLevel.trace.rank, false⟩
    else .error .invalidDirective
  | [], _ => .error .invalidDirective

def parts (s : String) : List String := (s.splitOn ",").filter fun p => !p.isEmpty

def orDefault (ds : List Directive) : List Directive :=
  if ds.isEmpty then [⟨none, LogLevel.error.rank, false⟩] else ds

def parse (s : String) : Except ParseError (List Directive) :=
  (orDefault ·) <$> (parts s).mapM Directive.parse

/-- Reads what can be read of a filter, with a complaint about each of the rest. -/
def parseLenient (s : String) : List Directive × List String :=
  let read := (parts s).map fun p => (p, Directive.parse p)
  let complaint : String × Except ParseError Directive → Option String
    | (p, .error e) => some s!"ignoring `{p}`: {e.message}"
    | _ => none
  (orDefault (read.filterMap fun r => r.2.toOption), read.filterMap complaint)

def weight? (target : String) (d : Directive) : Option Nat :=
  if d.inSpan then none
  else
    match d.target with
    | none => some 0
    | some t => if t.toList.isPrefixOf target.toList then some (t.length + 1) else none

/-- The rank of the most special directive, the last of several that are equal. -/
def best (target : String) : List Directive → Option (Nat × Nat) → Option (Nat × Nat)
  | [], found => found
  | d :: ds, found =>
    match weight? target d, found with
    | none, _ => best target ds found
    | some w, none => best target ds (some (w, d.rank))
    | some w, some (v, r) => best target ds (some (if v ≤ w then (w, d.rank) else (v, r)))

def shows (ds : List Directive) (r : LogRecord) : Bool :=
  (best r.source.target ds none).any fun (_, rank) => r.entry.level.rank ≤ rank

end LogFilter

end SearchRelay
