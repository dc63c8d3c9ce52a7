import SearchRelay.Relay

/-!
The life of one channel. It listens to the events before the controller hears of the client, so it
cannot miss the answer to that; then it greets the client and passes events on until one side ends
it or the relay closes.
-/

namespace SearchRelay

inductive Frame
  | text (s : String)
  | pong (payload : String)
  | close
  deriving DecidableEq, Repr

inductive Inbound
  | close
  | ended
  | ping (payload : String)
  | broken
  | other
  deriving DecidableEq, Repr

inductive SessionPhase
  | arriving
  | subscribed (receiver : Nat)
  | counted (receiver : Nat) (client : ClientId)
  | serving (receiver : Nat) (client : ClientId)
  | ended
  deriving DecidableEq, Repr

/-- A step of a channel; `sent` says whether its frame still reaches the client. -/
inductive SessionInput
  | subscribe
  | connect (client : ClientId)
  | greet (sent : Bool)
  | event (sent : Bool)
  | inbound (frame : Inbound) (sent : Bool)
  | closing (sent : Bool)
  deriving DecidableEq, Repr

structure SessionOutput where
  frames : List Frame := []
  logs : List LogEntry := []

namespace SessionPhase

def leave (relay : Relay) (receiver : Nat) (client : ClientId) (frames : List Frame) :
    SessionPhase × Relay × SessionOutput :=
  let (relay, logs) := relay.disconnect client
  (ended, { relay with events := relay.events.dropReceiver receiver }, { frames, logs })

def sendOrLeave (relay : Relay) (receiver : Nat) (client : ClientId) (frame : Frame)
    (sent : Bool) : SessionPhase × Relay × SessionOutput :=
  if sent then (serving receiver client, relay, { frames := [frame] })
  else leave relay receiver client []

/-- A step that does not fit the phase changes nothing. -/
def step (relay : Relay) (phase : SessionPhase) (input : SessionInput) :
    SessionPhase × Relay × SessionOutput :=
  match phase, input with
  | arriving, .subscribe =>
    let (receiver, events) := relay.events.subscribe
    (subscribed receiver, { relay with events }, {})
  | subscribed receiver, .connect client =>
    let (relay, logs) := relay.connect client
    (counted receiver client, relay, { logs })
  | counted receiver client, .greet sent =>
    sendOrLeave relay receiver client (.text (Emit.connected ⟨client⟩).toText) sent
  | serving receiver client, .event sent =>
    let (received, events) := relay.events.receive receiver
    let relay := { relay with events }
    match received with
    | some (.event e) => sendOrLeave relay receiver client (.text e.toText) sent
    | some (.lagged _) | some .empty => (phase, relay, {})
    | some .closed | none => leave relay receiver client []
  | serving receiver client, .inbound frame sent =>
    match frame with
    | .close | .ended | .broken => leave relay receiver client []
    | .ping payload => sendOrLeave relay receiver client (.pong payload) sent
    | .other => (phase, relay, {})
  | serving receiver client, .closing sent =>
    if relay.closing.requested then leave relay receiver client (if sent then [.close] else [])
    else (phase, relay, {})
  | _, _ => (phase, relay, {})

end SessionPhase

end SearchRelay
