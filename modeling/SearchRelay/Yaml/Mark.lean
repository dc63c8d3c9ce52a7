namespace SearchRelay.Yaml

structure Mark where
  index : Nat
  line : Nat
  column : Nat
  deriving DecidableEq, Repr, Inhabited

namespace Mark

def start : Mark := ⟨0, 0, 0⟩

/-- The very start of a document, which messages do not name. -/
def atOrigin (m : Mark) : Bool := m.line == 0 && m.column == 0

def samePlace (a b : Mark) : Bool := a.line == b.line && a.column == b.column

def place (m : Mark) : String := s!"line {m.line + 1} column {m.column + 1}"

end Mark

end SearchRelay.Yaml
