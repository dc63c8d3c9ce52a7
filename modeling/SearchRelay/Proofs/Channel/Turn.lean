import SearchRelay.Proofs.Broadcast.Run
import SearchRelay.Session

namespace SearchRelay

def Frame.text? : Frame → Option String
  | .text s => some s
  | _ => none

namespace SessionPhase

def receiver? : SessionPhase → Option Nat
  | subscribed i | counted i _ | serving i _ => some i
  | _ => none

def client? : SessionPhase → Option ClientId
  | counted _ client | serving _ client => some client
  | _ => none

def gets (relay : Relay) (phase : SessionPhase) (input : SessionInput) : List Emit :=
  match phase, input with
  | serving i _, .event _ => ((relay.events.receive i).1.bind Broadcast.Received.event?).toList
  | _, _ => []

def hears (relay : Relay) (phase : SessionPhase) (input : SessionInput) :
    List (Broadcast.Received Emit) :=
  match phase, input with
  | serving i _, .event _ => (relay.events.receive i).1.toList
  | _, _ => []

theorem gets_eq (relay : Relay) (phase : SessionPhase) (input : SessionInput) :
    phase.gets relay input = (phase.hears relay input).filterMap Broadcast.Received.event? := by
  unfold gets hears
  split
  · cases (relay.events.receive _).1 with
    | none => rfl
    | some r => cases hr : r.event? <;> simp [hr]
  · rfl

inductive Turn (relay : Relay) : SessionPhase → SessionInput →
    SessionPhase → Relay → List Frame → List Broadcast.Action → Prop
  | subscribe : Turn relay .arriving .subscribe (.subscribed relay.events.subscribe.1)
      { relay with events := relay.events.subscribe.2 } [] [.subscribe]
  | connect (i : Nat) (client : ClientId) : Turn relay (.subscribed i) (.connect client)
      (.counted i client) (relay.connect client).1 [] []
  | greet (i : Nat) (client : ClientId) : Turn relay (.counted i client) (.greet true)
      (.serving i client) relay [.text (Emit.connected ⟨client⟩).toText] []
  | event (i : Nat) (client : ClientId) (e : Emit)
      (h : (relay.events.receive i).1 = some (.event e)) :
      Turn relay (.serving i client) (.event true) (.serving i client)
        { relay with events := (relay.events.receive i).2 } [.text e.toText] [.receive i]
  /-- Nothing is there for the page, and the channel just goes on. -/
  | skip (i : Nat) (client : ClientId) (sent : Bool) {r : Broadcast.Received Emit}
      (h : (relay.events.receive i).1 = some r) (silent : r.event? = none) :
      Turn relay (.serving i client) (.event sent) (.serving i client)
        { relay with events := (relay.events.receive i).2 } [] [.receive i]
  | pong (i : Nat) (client : ClientId) (payload : String) :
      Turn relay (.serving i client) (.inbound (.ping payload) true) (.serving i client) relay
        [.pong payload] []
  | leave {phase : SessionPhase} (input : SessionInput) {i : Nat} {client : ClientId}
      {frames : List Frame} {uses : List Broadcast.Action} (receiver : phase.receiver? = some i)
      (counted : phase.client? = some client) (wordless : frames.filterMap Frame.text? = [])
      (looks : uses = [] ∨ uses = [.receive i]) :
      Turn relay phase input .ended
        { (relay.disconnect client).1 with
          events := ((relay.events.run uses).2).dropReceiver i }
        frames (uses ++ [.dropReceiver i])
  | rest (phase : SessionPhase) (input : SessionInput) (deaf : phase.hears relay input = []) :
      Turn relay phase input phase relay [] []

theorem turn_of_step (relay : Relay) (phase : SessionPhase) (input : SessionInput) :
    ∃ uses, Turn relay phase input (phase.step relay input).1 (phase.step relay input).2.1
      (phase.step relay input).2.2.frames uses := by
  cases phase with
  | arriving =>
    cases input with
    | subscribe => exact ⟨_, .subscribe⟩
    | _ => exact ⟨_, .rest _ _ rfl⟩
  | subscribed i =>
    cases input with
    | connect client => exact ⟨_, .connect i client⟩
    | _ => exact ⟨_, .rest _ _ rfl⟩
  | counted i client =>
    cases input with
    | greet sent =>
      cases sent with
      | true => exact ⟨_, .greet i client⟩
      | false => exact ⟨_, .leave _ rfl rfl rfl (.inl rfl)⟩
    | _ => exact ⟨_, .rest _ _ rfl⟩
  | serving i client =>
    cases input with
    | event sent =>
      cases hr : (relay.events.receive i).1 with
      | none =>
        simp only [step, hr]
        exact ⟨_, .leave _ rfl rfl rfl (.inr rfl)⟩
      | some r =>
        cases r with
        | event e =>
          cases sent with
          | true =>
            simp only [step, hr]
            exact ⟨_, .event i client e hr⟩
          | false =>
            simp only [step, hr]
            exact ⟨_, .leave _ rfl rfl rfl (.inr rfl)⟩
        | empty =>
          simp only [step, hr]
          exact ⟨_, .skip i client sent hr rfl⟩
        | lagged n =>
          simp only [step, hr]
          exact ⟨_, .skip i client sent hr rfl⟩
        | closed =>
          simp only [step, hr]
          exact ⟨_, .leave _ rfl rfl rfl (.inr rfl)⟩
    | inbound frame sent =>
      cases frame with
      | ping payload =>
        cases sent with
        | true => exact ⟨_, .pong i client payload⟩
        | false => exact ⟨_, .leave _ rfl rfl rfl (.inl rfl)⟩
      | other => exact ⟨_, .rest _ _ rfl⟩
      | _ => exact ⟨_, .leave _ rfl rfl rfl (.inl rfl)⟩
    | closing sent =>
      simp only [step]
      split
      · cases sent <;> exact ⟨_, .leave _ rfl rfl rfl (.inl rfl)⟩
      · exact ⟨_, .rest _ _ rfl⟩
    | _ => exact ⟨_, .rest _ _ rfl⟩
  | ended => exact ⟨_, .rest _ _ rfl⟩

namespace Turn

variable {relay relay' : Relay} {phase phase' : SessionPhase} {input : SessionInput}
  {frames : List Frame} {uses : List Broadcast.Action}

theorem events_eq (t : Turn relay phase input phase' relay' frames uses) :
    relay'.events = (relay.events.run uses).2 := by
  cases t with
  | leave =>
    rw [Broadcast.run_append]
    rfl
  | _ => rfl

theorem queue_eq (t : Turn relay phase input phase' relay' frames uses) :
    relay'.queue = relay.queue ∨
      ∃ i client, phase = .subscribed i ∧ input = .connect client ∧
        relay'.queue = (relay.queue.put (.newConnection client)).2 := by
  cases t with
  | connect i client => exact .inr ⟨i, client, rfl, rfl, rfl⟩
  | _ => exact .inl rfl

theorem eventsOf_eq (t : Turn relay phase input phase' relay' frames uses) :
    Broadcast.eventsOf uses = [] := by
  cases t with
  | leave _ _ _ _ looks => rcases looks with rfl | rfl <;> rfl
  | _ => rfl

/-- A channel has to do with no receiver but its own. -/
theorem uses_own (t : Turn relay phase input phase' relay' frames uses) {i : Nat}
    (hi : phase.receiver? ≠ some i) :
    .receive i ∉ uses ∧ .dropReceiver i ∉ uses := by
  cases t with
  | subscribe => simp
  | event j | skip j =>
    have hj : i ≠ j := fun hj => hi (hj ▸ rfl)
    simp [hj]
  | leave _ receiver _ _ looks =>
    have hj : i ≠ _ := fun hj => hi (hj ▸ receiver)
    rcases looks with rfl | rfl <;> simp [hj]
  | _ => simp

theorem receiver?_eq (t : Turn relay phase input phase' relay' frames uses) {i : Nat}
    (hi : phase'.receiver? = some i) :
    phase.receiver? = some i ∨ (i = relay.events.receivers.length ∧ uses = [.subscribe]) := by
  cases t with
  | subscribe => exact .inr ⟨(Option.some.inj hi).symm, rfl⟩
  | leave => exact nomatch hi
  | _ => exact .inl hi

theorem begins (t : Turn relay phase input phase' relay' frames uses) {i : Nat}
    (hi : phase'.receiver? = some i) :
    phase.receiver? = some i ∨ (phase = .arriving ∧ input = .subscribe) := by
  cases t with
  | subscribe => exact .inr ⟨rfl, rfl⟩
  | leave => exact nomatch hi
  | _ => exact .inl hi

end Turn

end SessionPhase

end SearchRelay
