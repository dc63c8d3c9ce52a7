import SearchRelay.Relay

namespace SearchRelay

def LogEntry.isDrop (e : LogEntry) : Bool := e.message == "Dropping connect event"

namespace Relay

def welcomed (client : ClientId) (clients : Nat) : LogEntry :=
  ⟨.info, "Client connected", [clientField client, countField clients]⟩

def unheard (client : ClientId) : LogEntry :=
  ⟨.warn, "Dropping connect event",
    [clientField client, ("error", .plain (QueueMessage.newConnection client).closedMessage)]⟩

variable {r : Relay}

theorem connect_open (h : r.queue.receiver) (client : ClientId) : r.connect client =
    ({ r with
        queue := { r.queue with waiting := r.queue.waiting ++ [.newConnection client] }
        clients := r.clients + 1 },
      [welcomed client (r.clients + 1)]) := by
  simp only [connect, Queue.put, if_pos h]
  rfl

theorem connect_shut (h : r.queue.receiver = false) (client : ClientId) : r.connect client =
    ({ r with clients := r.clients + 1 }, [unheard client, welcomed client (r.clients + 1)]) := by
  simp only [connect, Queue.put, h]
  rfl

/-- A client is welcomed once, whether or not its message was dropped. -/
theorem connect_logs (r : Relay) (client : ClientId) :
    (r.connect client).2.filter (fun e => !e.isDrop) = [welcomed client (r.clients + 1)] := by
  have hwelcomed : (welcomed client (r.clients + 1)).isDrop = false := rfl
  have hunheard : (unheard client).isDrop := rfl
  cases h : r.queue.receiver with
  | true => simp [connect_open h, hwelcomed]
  | false => simp [connect_shut h, hwelcomed, hunheard]

/-- What is dropped is told of once. -/
theorem connect_drops (r : Relay) (client : ClientId) :
    (r.connect client).2.filter LogEntry.isDrop =
      if r.queue.receiver then [] else [unheard client] := by
  have hwelcomed : (welcomed client (r.clients + 1)).isDrop = false := rfl
  have hunheard : (unheard client).isDrop := rfl
  cases h : r.queue.receiver with
  | true => simp [connect_open h, hwelcomed]
  | false => simp [connect_shut h, hwelcomed, hunheard]

end Relay

end SearchRelay
