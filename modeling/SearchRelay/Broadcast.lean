import SearchRelay.Log
import SearchRelay.Message.Encoding

/-!
Events for any number of receivers. The newest events are kept; a receiver that is further behind
learns how many it missed and goes on with the oldest that is left.
-/

namespace SearchRelay

def roundUpPower (n : Nat) : Nat := if n ≤ 1 then 1 else Nat.pow 2 ((n - 1).log2 + 1)

structure Broadcast (α : Type) where
  /-- How many events are kept for those that lag behind. -/
  capacity : Nat
  /-- All events that a receiver may still ask for, newest first. -/
  newest : List α := []
  sent : Nat := 0
  /-- How many events each receiver is past, by number; none when it is gone. -/
  receivers : List (Option Nat) := []
  broadcaster : Bool := true
  clones : Nat := 0
  deriving Repr

namespace Broadcast

variable {α : Type}

abbrev maxCapacity : Nat := Nat.pow 2 63 - 1

inductive CapacityError
  | tooLarge
  deriving DecidableEq, Repr

def CapacityError.message : CapacityError → String
  | .tooLarge => "broadcast channel capacity exceeded `usize::MAX / 2`"

/-- A capacity of zero counts as one. -/
def ofCapacity (capacity : Nat) : Except CapacityError (Broadcast α) :=
  if maxCapacity < capacity then .error .tooLarge
  else .ok { capacity := roundUpPower (max capacity 1) }

abbrev defaultCapacity : Nat := 256

def hasBroadcaster (b : Broadcast α) : Bool := b.broadcaster || b.clones != 0

def receiverCount (b : Broadcast α) : Nat := b.receivers.countP Option.isSome

def subscribe (b : Broadcast α) : Nat × Broadcast α :=
  (b.receivers.length, { b with receivers := b.receivers ++ [some b.sent] })

def send (b : Broadcast α) (a : α) : Nat × Broadcast α :=
  (b.receiverCount, { b with newest := (a :: b.newest).take b.capacity, sent := b.sent + 1 })

inductive Received (α : Type)
  | event (a : α)
  | empty
  | lagged (missed : Nat)
  | closed
  deriving Repr

/-- What a receiver gets that is past `position` events, and where it is then. -/
def receiveAt (b : Broadcast α) (position : Nat) : Received α × Nat :=
  let backlog := b.sent - position
  if b.capacity < backlog then (.lagged (backlog - b.capacity), b.sent - b.capacity)
  else
    match backlog with
    | 0 => (if b.hasBroadcaster then .empty else .closed, position)
    | n + 1 =>
      match b.newest[n]? with
      | some a => (.event a, position + 1)
      | none => (.empty, position)

def receive (b : Broadcast α) (i : Nat) : Option (Received α) × Broadcast α :=
  match b.receivers.getD i none with
  | none => (none, b)
  | some position =>
    let (r, position) := b.receiveAt position
    (some r, { b with receivers := b.receivers.set i (some position) })

def hasReceiver (b : Broadcast α) (i : Nat) : Bool := (b.receivers.getD i none).isSome

def dropReceiver (b : Broadcast α) (i : Nat) : Broadcast α :=
  { b with receivers := b.receivers.set i none }

def clone (b : Broadcast α) : Broadcast α := { b with clones := b.clones + 1 }

def dropClone (b : Broadcast α) : Broadcast α := { b with clones := b.clones - 1 }

def dropFirst (b : Broadcast α) : Broadcast α := { b with broadcaster := false }

end Broadcast

inductive PayloadError
  | keyNotString
  deriving DecidableEq, Repr

namespace PayloadError

def message : PayloadError → String
  | keyNotString => "key must be a string"

def toLog (event : String) (e : PayloadError) : LogEntry :=
  ⟨.warn, "Failed to serialize event payload",
    [("event", .quoted event), ("error", .plain e.message)]⟩

end PayloadError

namespace Broadcast

/-- Sends a payload under a name; one without JSON form reaches nobody and is complained about. -/
def emit (b : Broadcast Emit) (event : String) (payload : Except PayloadError Json.Value) :
    Nat × Broadcast Emit × List LogEntry :=
  match payload with
  | .error e => (0, b, [e.toLog event])
  | .ok data =>
    let (n, b) := b.send ⟨event, data⟩
    (n, b, [])

end Broadcast

end SearchRelay
