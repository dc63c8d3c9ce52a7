import SearchRelay.Broadcast
import SearchRelay.Queue
import SearchRelay.StopLatch
import SearchRelay.Text.Blank

namespace SearchRelay

/-- Characters that mean themselves in every URL. -/
def isUnreserved (c : Char) : Bool :=
  c.isAlphanum || c == '-' || c == '_' || c == '.' || c == '~'

def isPlainRoute (cs : List Char) : Bool :=
  (cs.splitOn '/').all fun segment => !segment.isEmpty && segment.all isUnreserved

structure Relay where
  queue : Queue QueueMessage := {}
  events : Broadcast Emit
  websocketPath : String := "/websocket"
  controllerLabel : String := "none"
  closing : StopLatch := {}
  clients : Nat := 0

namespace Relay

abbrev defaultPath : String := "/websocket"

def trimPath (path : String) : List Char :=
  Text.trimList (· == '/') (Text.trimList Text.isBlank path.toList)

def route? (path : String) : Option String :=
  let trimmed := trimPath path
  if isPlainRoute trimmed then some (String.ofList ('/' :: trimmed)) else none

def invalidPath (path : String) : LogEntry :=
  ⟨.warn, "Invalid WebSocket path, keeping default",
    [("path", .quoted path), ("default", .quoted defaultPath)]⟩

/-- Moves the channel to a path; a path that is no plain route leaves it where it is. -/
def withPath (r : Relay) (path : String) : Relay × List LogEntry :=
  match route? path with
  | some route => ({ r with websocketPath := route }, [])
  | none => (r, [invalidPath path])

def withLabel (r : Relay) (label : String) : Relay := { r with controllerLabel := label }

def clientField (client : ClientId) : String × LogValue := ("client_id", .plain client.toText)

def countField (clients : Nat) : String × LogValue := ("clients", .plain (toString clients))

def connect (r : Relay) (client : ClientId) : Relay × List LogEntry :=
  let (outcome, queue) := r.queue.put (.newConnection client)
  let dropped : List LogEntry :=
    match outcome with
    | .accepted => []
    | .closed m =>
      [⟨.warn, "Dropping connect event",
        [clientField client, ("error", .plain m.closedMessage)]⟩]
  let clients := r.clients + 1
  ({ r with queue, clients },
    dropped ++ [⟨.info, "Client connected", [clientField client, countField clients]⟩])

/-- The count does not fall below zero. -/
def disconnect (r : Relay) (client : ClientId) : Relay × List LogEntry :=
  let clients := r.clients - 1
  ({ r with clients },
    [⟨.info, "Client disconnected", [clientField client, countField clients]⟩])

/-- Asks all channels to close: true the first time. -/
def close (r : Relay) : Bool × Relay :=
  let (first, closing) := r.closing.request
  (first, { r with closing })

end Relay

end SearchRelay
