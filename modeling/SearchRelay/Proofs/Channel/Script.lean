import SearchRelay.Proofs.Channel.Turn
import SearchRelay.Proofs.Relay

namespace SearchRelay

inductive Call
  | connect (client : ClientId)
  | disconnect (client : ClientId)

namespace Call

def perform (r : Relay) : Call → Relay × List LogEntry
  | connect client => r.connect client
  | disconnect client => r.disconnect client

def performAll (r : Relay) : List Call → Relay × List LogEntry
  | [] => (r, [])
  | call :: rest =>
    let (r, logs) := call.perform r
    let (r, more) := performAll r rest
    (r, logs ++ more)

def messages : Call → List QueueMessage
  | connect client => [.newConnection client]
  | disconnect _ => []

end Call

inductive Prompt
  | welcome (client : ClientId)
  | event (e : Emit)
  | ping (payload : String)
  | closing

namespace Prompt

def frame : Prompt → Frame
  | welcome client => .text (Emit.connected ⟨client⟩).toText
  | event e => .text e.toText
  | ping payload => .pong payload
  | closing => .close

def isChatter : Prompt → Bool
  | event _ | ping _ => true
  | _ => false

end Prompt

def SessionInput.sent : SessionInput → Bool
  | .greet sent | .event sent | .inbound _ sent | .closing sent => sent
  | _ => true

namespace SessionPhase

/-- A channel that gets a client tells of it, and one that has it no more tells of that. -/
def calls (phase phase' : SessionPhase) : List Call :=
  match phase.client?, phase'.client? with
  | none, some client => [.connect client]
  | some client, none => [.disconnect client]
  | _, _ => []

def prompts (relay : Relay) (phase : SessionPhase) (input : SessionInput) : List Prompt :=
  match phase, input with
  | counted _ client, .greet _ => [.welcome client]
  | serving _ _, .event _ => (phase.gets relay input).map .event
  | serving _ _, .inbound (.ping payload) _ => [.ping payload]
  | serving _ _, .closing _ => if relay.closing.requested then [.closing] else []
  | _, _ => []

/-- What a step that leads to a phase does with the events. -/
def uses (phase : SessionPhase) (input : SessionInput) (phase' : SessionPhase) :
    List Broadcast.Action :=
  let looks : List Broadcast.Action :=
    match phase, input with
    | arriving, .subscribe => [.subscribe]
    | serving i _, .event _ => [.receive i]
    | _, _ => []
  let drops : List Broadcast.Action :=
    match phase.receiver?, phase'.receiver? with
    | some i, none => [.dropReceiver i]
    | _, _ => []
  looks ++ drops

/-- The steps that have their place in a phase. -/
def awaits : SessionPhase → SessionInput → Bool
  | arriving, .subscribe | subscribed _, .connect _ | counted _ _, .greet _ => true
  | serving _ _, .event _ | serving _ _, .inbound _ _ | serving _ _, .closing _ => true
  | _, _ => false

def stage : SessionPhase → Nat
  | arriving => 0
  | subscribed _ => 1
  | counted _ _ => 2
  | serving _ _ => 3
  | ended => 4

/-- The calls of a channel up to some phase, what it was prompted for, and the frames that reached
its client. Only the last frame may get lost, and then the channel has ended. -/
inductive Script : SessionPhase → List Call → List Prompt → List Frame → Prop
  | arriving : Script .arriving [] [] []
  | subscribed (i : Nat) : Script (.subscribed i) [] [] []
  | counted (i : Nat) (client : ClientId) : Script (.counted i client) [.connect client] [] []
  | serving (i : Nat) (client : ClientId) (body : List Prompt)
      (chatter : ∀ p ∈ body, p.isChatter) :
      Script (.serving i client) [.connect client] (.welcome client :: body)
        ((.welcome client :: body).map Prompt.frame)
  | ended (client : ClientId) (body last : List Prompt) (chatter : ∀ p ∈ body, p.isChatter)
      (closing : last = [] ∨ last = [.closing]) {frames : List Frame}
      (reach : frames = (.welcome client :: (body ++ last)).map Prompt.frame ∨
        frames = (.welcome client :: (body ++ last)).dropLast.map Prompt.frame) :
      Script .ended [.connect client, .disconnect client] (.welcome client :: (body ++ last)) frames

inductive Passes (relay : Relay) (i : Nat) : SessionInput → Prompt → Prop
  | event {e : Emit} (sent : Bool) (h : (relay.events.receive i).1 = some (.event e)) :
      Passes relay i (.event sent) (.event e)
  | ping (payload : String) (sent : Bool) :
      Passes relay i (.inbound (.ping payload) sent) (.ping payload)

/-- The steps that a channel which serves its client survives. -/
inductive Remains (relay : Relay) (i : Nat) : SessionInput → List Prompt → Prop
  | passes {input : SessionInput} {p : Prompt} (h : Passes relay i input p) (reaches : input.sent) :
      Remains relay i input [p]
  | nothing (sent : Bool) (h : (relay.events.receive i).1 = some .empty) :
      Remains relay i (.event sent) []
  | lagged {missed : Nat} (sent : Bool) (h : (relay.events.receive i).1 = some (.lagged missed)) :
      Remains relay i (.event sent) []
  | other (sent : Bool) : Remains relay i (.inbound .other sent) []
  | unlatched (sent : Bool) (h : relay.closing.requested = false) :
      Remains relay i (.closing sent) []

/-- The steps that end it. -/
inductive Departs (relay : Relay) (i : Nat) : SessionInput → List Prompt → Prop
  | lost {input : SessionInput} {p : Prompt} (h : Passes relay i input p)
      (lost : input.sent = false) : Departs relay i input [p]
  | closed (sent : Bool)
      (h : (relay.events.receive i).1 = some .closed ∨ (relay.events.receive i).1 = none) :
      Departs relay i (.event sent) []
  | goodbye (sent : Bool) : Departs relay i (.inbound .close sent) []
  | gone (sent : Bool) : Departs relay i (.inbound .ended sent) []
  | broken (sent : Bool) : Departs relay i (.inbound .broken sent) []
  | latched (sent : Bool) (h : relay.closing.requested) : Departs relay i (.closing sent) [.closing]

/-- How a step takes a channel on in its script. -/
inductive Cue (relay : Relay) :
    SessionPhase → SessionInput → SessionPhase → List Call → List Prompt → Prop
  | subscribes :
      Cue relay .arriving .subscribe (.subscribed relay.events.receivers.length) [] []
  | connects (i : Nat) (client : ClientId) :
      Cue relay (.subscribed i) (.connect client) (.counted i client) [.connect client] []
  | greets (i : Nat) (client : ClientId) :
      Cue relay (.counted i client) (.greet true) (.serving i client) [] [.welcome client]
  | ungreeted (i : Nat) (client : ClientId) :
      Cue relay (.counted i client) (.greet false) .ended [.disconnect client] [.welcome client]
  | remains {i : Nat} (client : ClientId) {input : SessionInput} {prompts : List Prompt}
      (h : Remains relay i input prompts) :
      Cue relay (.serving i client) input (.serving i client) [] prompts
  | departs {i : Nat} (client : ClientId) {input : SessionInput} {prompts : List Prompt}
      (h : Departs relay i input prompts) :
      Cue relay (.serving i client) input .ended [.disconnect client] prompts
  | rests {phase : SessionPhase} {input : SessionInput} (h : phase.awaits input = false) :
      Cue relay phase input phase [] []

/-- A channel takes its cue from its step, sends what that prompts it to, and of all that the
channels share it changes nothing but what its calls change, and the events. -/
structure Follows (relay : Relay) (phase : SessionPhase) (input : SessionInput)
    (out : SessionPhase × Relay × SessionOutput) : Prop where
  cue : Cue relay phase input out.1 (phase.calls out.1) (phase.prompts relay input)
  frames : out.2.2.frames =
    if input.sent then (phase.prompts relay input).map Prompt.frame else []
  effect : out.2.1 = { (Call.performAll relay (phase.calls out.1)).1 with
    events := (relay.events.run (phase.uses input out.1)).2 }
  logs : out.2.2.logs = (Call.performAll relay (phase.calls out.1)).2

theorem Follows.rests (relay : Relay) {phase : SessionPhase} {input : SessionInput}
    (h : phase.awaits input = false) : Follows relay phase input (phase, relay, {}) := by
  have unprompted : phase.prompts relay input = [] := by
    unfold prompts
    split
    case h_5 => rfl
    all_goals cases h
  have uncalled : phase.calls phase = [] := by
    rw [calls]
    cases phase.client? <;> rfl
  have unused : phase.uses input phase = [] := by
    have kept : (match phase.receiver?, phase.receiver? with
        | some i, none => [.dropReceiver i]
        | _, _ => ([] : List Broadcast.Action)) = [] := by
      cases phase.receiver? <;> rfl
    unfold uses
    simp only [kept, List.append_nil]
    split
    case h_3 => rfl
    all_goals cases h
  refine ⟨?_, ?_, ?_, ?_⟩
  · rw [unprompted, uncalled]
    exact .rests h
  · rw [unprompted]
    exact (ite_self []).symm
  · rw [uncalled, unused]
    rfl
  · rw [uncalled]
    rfl

theorem Follows.of_prompts {relay : Relay} {phase : SessionPhase} {input : SessionInput}
    {out : SessionPhase × Relay × SessionOutput} {prompts : List Prompt}
    (prompted : phase.prompts relay input = prompts)
    (cue : Cue relay phase input out.1 (phase.calls out.1) prompts)
    (frames : out.2.2.frames = if input.sent then prompts.map Prompt.frame else [])
    (effect : out.2.1 = { (Call.performAll relay (phase.calls out.1)).1 with
      events := (relay.events.run (phase.uses input out.1)).2 })
    (logs : out.2.2.logs = (Call.performAll relay (phase.calls out.1)).2) :
    Follows relay phase input out := by
  subst prompted
  exact ⟨cue, frames, effect, logs⟩

theorem event_follows (relay : Relay) (i : Nat) (client : ClientId) (sent : Bool) :
    Follows relay (.serving i client) (.event sent)
      ((serving i client).step relay (.event sent)) := by
  have prompted : (serving i client).prompts relay (.event sent) =
      ((relay.events.receive i).1.bind Broadcast.Received.event?).toList.map .event := rfl
  cases hr : (relay.events.receive i).1 with
  | none =>
    rw [hr] at prompted
    simp only [step, hr]
    exact .of_prompts prompted (.departs client (.closed sent (.inr hr))) (ite_self []).symm rfl rfl
  | some r =>
    rw [hr] at prompted
    simp only [step, hr]
    cases r with
    | event e =>
      cases sent with
      | true => exact .of_prompts prompted (.remains client (.passes (.event true hr) rfl)) rfl rfl rfl
      | false => exact .of_prompts prompted (.departs client (.lost (.event false hr) rfl)) rfl rfl rfl
    | empty =>
      exact .of_prompts prompted (.remains client (.nothing sent hr)) (ite_self []).symm rfl rfl
    | lagged missed =>
      exact .of_prompts prompted (.remains client (.lagged sent hr)) (ite_self []).symm rfl rfl
    | closed =>
      exact .of_prompts prompted (.departs client (.closed sent (.inl hr))) (ite_self []).symm rfl rfl

theorem closing_follows (relay : Relay) (i : Nat) (client : ClientId) (sent : Bool) :
    Follows relay (.serving i client) (.closing sent)
      ((serving i client).step relay (.closing sent)) := by
  have prompted : (serving i client).prompts relay (.closing sent) =
      if relay.closing.requested then [.closing] else [] := rfl
  cases hr : relay.closing.requested with
  | false =>
    rw [hr] at prompted
    simp only [step, hr]
    exact .of_prompts prompted (.remains client (.unlatched sent hr)) (ite_self []).symm rfl rfl
  | true =>
    rw [hr] at prompted
    simp only [step, hr]
    exact .of_prompts prompted (.departs client (.latched sent hr)) rfl rfl rfl

theorem step_follows (relay : Relay) (phase : SessionPhase) (input : SessionInput) :
    Follows relay phase input (phase.step relay input) := by
  cases phase with
  | arriving =>
    cases input with
    | subscribe => exact ⟨.subscribes, rfl, rfl, rfl⟩
    | _ => exact .rests relay rfl
  | subscribed i =>
    cases input with
    | connect client => exact ⟨.connects i client, rfl, rfl, (List.append_nil _).symm⟩
    | _ => exact .rests relay rfl
  | counted i client =>
    cases input with
    | greet sent =>
      cases sent with
      | true => exact ⟨.greets i client, rfl, rfl, rfl⟩
      | false => exact ⟨.ungreeted i client, rfl, rfl, rfl⟩
    | _ => exact .rests relay rfl
  | serving i client =>
    cases input with
    | event sent => exact event_follows relay i client sent
    | inbound frame sent =>
      cases frame with
      | close => exact ⟨.departs client (.goodbye sent), (ite_self []).symm, rfl, rfl⟩
      | ended => exact ⟨.departs client (.gone sent), (ite_self []).symm, rfl, rfl⟩
      | broken => exact ⟨.departs client (.broken sent), (ite_self []).symm, rfl, rfl⟩
      | ping payload =>
        cases sent with
        | true => exact ⟨.remains client (.passes (.ping payload true) rfl), rfl, rfl, rfl⟩
        | false => exact ⟨.departs client (.lost (.ping payload false) rfl), rfl, rfl, rfl⟩
      | other => exact ⟨.remains client (.other sent), (ite_self []).symm, rfl, rfl⟩
    | closing sent => exact closing_follows relay i client sent
    | _ => exact .rests relay rfl
  | ended => exact .rests relay rfl

variable {relay : Relay} {phase phase' : SessionPhase} {input : SessionInput}
  {calls more : List Call} {prompts last : List Prompt} {frames : List Frame}

theorem Passes.chatter {i : Nat} {p : Prompt} (h : Passes relay i input p) : p.isChatter := by
  cases h <;> rfl

theorem chatter_concat {body : List Prompt} {p : Prompt} (old : ∀ q ∈ body, q.isChatter)
    (new : p.isChatter) : ∀ q ∈ body ++ [p], q.isChatter :=
  List.forall_mem_append.2 ⟨old, List.forall_mem_singleton.2 new⟩

theorem Script.remains {i : Nat} {client : ClientId}
    (h : Script (.serving i client) calls prompts frames) (r : Remains relay i input last) :
    Script (.serving i client) calls (prompts ++ last)
      (frames ++ if input.sent then last.map Prompt.frame else []) := by
  cases r with
  | passes passes reaches =>
    cases h with
    | serving _ _ body old =>
      simpa [reaches] using Script.serving i client _ (chatter_concat old passes.chatter)
  | _ => simpa using h

theorem Script.departs {i : Nat} {client : ClientId}
    (h : Script (.serving i client) calls prompts frames) (d : Departs relay i input last) :
    Script .ended (calls ++ [.disconnect client]) (prompts ++ last)
      (frames ++ if input.sent then last.map Prompt.frame else []) := by
  cases h with
  | serving _ _ body old =>
    -- Only the last frame may be lost: the goodbye, or what was to be passed on.
    have farewell {last : List Prompt} (closing : last = [] ∨ last = [.closing])
        (sent : Bool) : Script .ended [.connect client, .disconnect client]
          (.welcome client :: (body ++ last)) ((.welcome client :: body).map Prompt.frame ++
            if sent then last.map Prompt.frame else []) := by
      refine .ended client body last old closing ?_
      cases sent with
      | true => exact .inl (by simp)
      | false =>
        rcases closing with rfl | rfl
        · exact .inl (by simp)
        · refine .inr ?_
          rw [← List.cons_append, List.dropLast_concat]
          exact List.append_nil _
    cases d with
    | @lost _ p passes lost =>
      have reach : (Prompt.welcome client :: body).map Prompt.frame =
          (Prompt.welcome client :: (body ++ [p] ++ [])).dropLast.map Prompt.frame := by
        rw [List.append_nil, ← List.cons_append, List.dropLast_concat]
      have all := chatter_concat old passes.chatter
      simpa [lost] using Script.ended client (body ++ [p]) [] all (.inl rfl) (.inr reach)
    | latched sent => exact farewell (.inr rfl) sent
    | closed sent | goodbye sent | gone sent | broken sent => exact farewell (.inl rfl) sent

theorem Script.cue (h : Script phase calls prompts frames)
    (cue : Cue relay phase input phase' more last) :
    Script phase' (calls ++ more) (prompts ++ last)
      (frames ++ if input.sent then last.map Prompt.frame else []) := by
  cases cue with
  | subscribes =>
    cases h with
    | arriving => exact .subscribed _
  | connects i client =>
    cases h with
    | subscribed => exact .counted i client
  | greets i client =>
    cases h with
    | counted => exact .serving i client [] (List.forall_mem_nil _)
  | ungreeted i client =>
    cases h with
    | counted => exact .ended client [] [] (List.forall_mem_nil _) (.inl rfl) (.inr rfl)
  | remains client r => simpa using h.remains r
  | departs client d => exact h.departs d
  | rests => simpa using h

theorem Departs.ends {i : Nat} (d : Departs relay i input prompts) (client : ClientId) :
    ((serving i client).step relay input).1 = .ended := by
  cases d with
  | lost passes lost =>
    cases passes with
    | event sent h =>
      obtain rfl : sent = false := lost
      simp only [step, h]
      rfl
    | ping payload sent =>
      obtain rfl : sent = false := lost
      rfl
  | closed sent h =>
    rcases h with h | h
    all_goals
      simp only [step, h]
      rfl
  | latched sent h =>
    simp only [step, h]
    rfl
  | goodbye | gone | broken => rfl

theorem Cue.closes (cue : Cue relay phase input phase' calls prompts) (h : .closing ∈ prompts) :
    relay.closing.requested ∧ phase' = .ended := by
  have unchatted {i : Nat} {p : Prompt} (passes : Passes relay i input p) : .closing ∉ [p] := by
    intro h
    obtain rfl := List.mem_singleton.1 h
    exact nomatch passes.chatter
  cases cue with
  | remains client r =>
    cases r with
    | passes passes => exact absurd h (unchatted passes)
    | _ => cases h
  | departs client d =>
    cases d with
    | latched sent requested => exact ⟨requested, rfl⟩
    | lost passes => exact absurd h (unchatted passes)
    | _ => cases h
  | _ => simp at h

theorem Follows.closes {out : SessionPhase × Relay × SessionOutput}
    (h : Follows relay phase input out) (hclose : .close ∈ out.2.2.frames) :
    relay.closing.requested ∧ out.1 = .ended := by
  refine h.cue.closes ?_
  rw [h.frames] at hclose
  split at hclose
  · obtain ⟨p, hp, he⟩ := List.mem_map.1 hclose
    cases p with
    | closing => exact hp
    | _ => exact nomatch he
  · cases hclose

structure Alike (out other : SessionPhase × Relay × SessionOutput) : Prop where
  phase : other.1 = out.1
  relay : ∃ queue, other.2.1 = { out.2.1 with queue }
  frames : other.2.2.frames = out.2.2.frames
  logs : other.2.2.logs.filter (fun e => !e.isDrop) = out.2.2.logs.filter (fun e => !e.isDrop)

theorem step_alike (relay : Relay) (queue : Queue QueueMessage) (phase : SessionPhase)
    (input : SessionInput) :
    Alike (phase.step relay input) (phase.step { relay with queue } input) := by
  have rests (phase : SessionPhase) (events : Broadcast Emit) :
      Alike (phase, { relay with events }, {}) (phase, { relay with queue, events }, {}) :=
    ⟨rfl, ⟨queue, rfl⟩, rfl, rfl⟩
  cases phase with
  | arriving => cases input <;> exact ⟨rfl, ⟨queue, rfl⟩, rfl, rfl⟩
  | subscribed i =>
    cases input with
    | connect client =>
      refine ⟨rfl, ⟨_, rfl⟩, rfl, ?_⟩
      exact (Relay.connect_logs _ client).trans (relay.connect_logs client).symm
    | _ => exact rests _ _
  | counted i client =>
    cases input with
    | greet sent => cases sent <;> exact ⟨rfl, ⟨queue, rfl⟩, rfl, rfl⟩
    | _ => exact rests _ _
  | serving i client =>
    cases input with
    | event sent =>
      simp only [step]
      cases (relay.events.receive i).1 with
      | none => exact ⟨rfl, ⟨queue, rfl⟩, rfl, rfl⟩
      | some r =>
        cases r with
        | event e => cases sent <;> exact ⟨rfl, ⟨queue, rfl⟩, rfl, rfl⟩
        | _ => exact ⟨rfl, ⟨queue, rfl⟩, rfl, rfl⟩
    | inbound frame sent =>
      cases frame with
      | ping payload => cases sent <;> exact ⟨rfl, ⟨queue, rfl⟩, rfl, rfl⟩
      | _ => exact ⟨rfl, ⟨queue, rfl⟩, rfl, rfl⟩
    | closing sent =>
      simp only [step]
      cases relay.closing.requested <;> exact ⟨rfl, ⟨queue, rfl⟩, rfl, rfl⟩
    | _ => exact rests _ _
  | ended => exact rests _ _

end SessionPhase

end SearchRelay
