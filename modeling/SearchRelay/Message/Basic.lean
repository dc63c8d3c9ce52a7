import SearchRelay.Json.Printer
import SearchRelay.Timestamp
import SearchRelay.Uuid

namespace SearchRelay

abbrev ClientId := Uuid

inductive QueueMessage
  | newConnection (client : ClientId)
  deriving DecidableEq, Repr

namespace QueueMessage

def tag : QueueMessage → String
  | newConnection _ => "new connection"

def client : QueueMessage → ClientId
  | newConnection c => c

end QueueMessage

structure Emit where
  event : String
  data : Json.Value
  deriving Repr

inductive ControllerState
  | indexing
  | ready
  | stopped
  deriving DecidableEq, Repr

namespace ControllerState

def name : ControllerState → String
  | indexing => "indexing"
  | ready => "ready"
  | stopped => "stopped"

end ControllerState

structure StatusPayload where
  state : ControllerState
  root : String
  files : Nat
  /-- How many scans are complete. -/
  scans : Nat
  mock : Bool
  updatedAt : Timestamp
  deriving DecidableEq, Repr

structure IndexUpdate where
  files : Nat
  added : Nat
  removed : Nat
  deriving DecidableEq, Repr

structure Progress where
  scanned : Nat
  total : Nat
  deriving DecidableEq, Repr

structure Welcome where
  client : ClientId
  deriving DecidableEq, Repr

end SearchRelay
