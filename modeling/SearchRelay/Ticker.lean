namespace SearchRelay

/-- A clock in milliseconds that gives a tick every period. Ticks that were missed are skipped. -/
structure Ticker where
  period : Nat
  due : Nat
  deriving DecidableEq, Repr

namespace Ticker

/-- A tick that comes no later than this is not late. -/
abbrev tolerance : Nat := 5

def isDue (t : Ticker) (now : Nat) : Bool := t.due ≤ now

/-- Takes the tick that is due. After a late one the next falls on the following multiple. -/
def take (t : Ticker) (now : Nat) : Ticker :=
  if now ≤ t.due + tolerance then { t with due := t.due + t.period }
  else { t with due := now + t.period - (now - t.due) % t.period }

end Ticker

end SearchRelay
