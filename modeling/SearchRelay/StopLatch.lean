/-!
A latch that is set once, and the tasks that wait for it. A waiter first listens for the next
notification and only then looks at the flag, so a request in between is not lost.
-/

namespace SearchRelay

inductive Waiter
  | arriving
  /-- Listens, and has yet to look at the flag. -/
  | listening (notified : Bool)
  /-- Saw the flag unset, and is about to sleep. -/
  | resigned (notified : Bool)
  | parked (notified : Bool)
  | released
  | cancelled
  deriving DecidableEq, Repr

namespace Waiter

def isFinished : Waiter → Bool
  | released | cancelled => true
  | _ => false

def notify : Waiter → Waiter
  | listening _ => listening true
  | resigned _ => resigned true
  | parked _ => parked true
  | w => w

def step (requested : Bool) : Waiter → Waiter
  | arriving => listening false
  | listening n => if requested then released else resigned n
  | resigned n => if n then arriving else parked false
  | parked true => arriving
  | w => w

/-- Runs a waiter until it sleeps or is done. From any state that takes at most five steps. -/
def settle (requested : Bool) (w : Waiter) : Waiter :=
  (step requested ∘ step requested ∘ step requested ∘ step requested ∘ step requested) w

end Waiter

structure StopLatch where
  requested : Bool := false
  waiters : List Waiter := []
  deriving DecidableEq, Repr

namespace StopLatch

def swap (l : StopLatch) : Bool × StopLatch := (!l.requested, { l with requested := true })

def notifyAll (l : StopLatch) : StopLatch := { l with waiters := l.waiters.map Waiter.notify }

def request (l : StopLatch) : Bool × StopLatch :=
  let (first, l) := l.swap
  (first, l.notifyAll)

def wait (l : StopLatch) : Nat × StopLatch :=
  (l.waiters.length, { l with waiters := l.waiters ++ [.arriving] })

def stepWaiter (l : StopLatch) (i : Nat) : StopLatch :=
  { l with waiters := l.waiters.modify i (Waiter.step l.requested) }

def cancel (l : StopLatch) (i : Nat) : StopLatch :=
  { l with waiters := l.waiters.modify i fun w => if w.isFinished then w else .cancelled }

def settle (l : StopLatch) : StopLatch :=
  { l with waiters := l.waiters.map (Waiter.settle l.requested) }

/-- A waiter that came now would not sleep. -/
def isOpen (l : StopLatch) : Bool := (Waiter.arriving.settle l.requested).isFinished

end StopLatch

end SearchRelay
