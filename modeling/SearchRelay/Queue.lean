import SearchRelay.Message.Basic

namespace SearchRelay

structure Queue (α : Type) where
  waiting : List α := []
  senders : List Bool := [true]
  receiver : Bool := true
  deriving DecidableEq, Repr

namespace Queue

variable {α : Type}

def hasSender (q : Queue α) (i : Nat) : Bool := q.senders.getD i false

def anySender (q : Queue α) : Bool := q.senders.any id

inductive Put (α : Type)
  | accepted
  /-- The receiver is gone, so the message comes back. -/
  | closed (message : α)
  deriving DecidableEq, Repr

def put (q : Queue α) (a : α) : Put α × Queue α :=
  if q.receiver then (.accepted, { q with waiting := q.waiting ++ [a] }) else (.closed a, q)

def clone (q : Queue α) : Nat × Queue α :=
  (q.senders.length, { q with senders := q.senders ++ [true] })

def dropSender (q : Queue α) (i : Nat) : Queue α := { q with senders := q.senders.set i false }

/-- Without a receiver nothing waits any more. -/
def dropReceiver (q : Queue α) : Queue α := { q with waiting := [], receiver := false }

def isClosed (q : Queue α) : Bool := !q.receiver

inductive Get (α : Type)
  | message (a : α)
  | pending
  | ended
  deriving DecidableEq, Repr

def get (q : Queue α) : Get α × Queue α :=
  match q.waiting with
  | a :: r => (.message a, { q with waiting := r })
  | [] => (if q.anySender then .pending else .ended, q)

def tryGet (q : Queue α) : Option α × Queue α :=
  (q.waiting.head?, { q with waiting := q.waiting.tail })

def isEmpty (q : Queue α) : Bool := q.waiting.isEmpty

end Queue

namespace QueueMessage

def closedMessage (m : QueueMessage) : String :=
  s!"communication queue closed (message: {m.tag})"

end QueueMessage

end SearchRelay
