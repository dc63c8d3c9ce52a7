import SearchRelay.Bootstrap
import SearchRelay.Http.Router
import SearchRelay.Proofs.Broadcast.Run
import SearchRelay.Proofs.Controller.Queueing
import SearchRelay.Proofs.Relay
import SearchRelay.Proofs.Trace

namespace SearchRelay

def Move.isPut : Move → Bool
  | .put _ => true
  | _ => false

namespace Scene

variable {s : Scene} {m : Move}

theorem aside_accepted (h : m.isPut = false) : (s.aside m).2 = [] := by
  cases m with
  | put q => cases h
  | _ => rfl

theorem move_accepted (h : m.isPut = false) : (s.move m).2.accepted = [] := by
  cases hi : s.input? m with
  | some input => simp only [move, hi]
  | none => simp only [move, hi, aside_accepted h]

end Scene

namespace Services

def queue (s : Services) : Queue QueueMessage := s.relay.queue

def withQueue (s : Services) (queue : Queue QueueMessage) : Services :=
  { s with relay := { s.relay with queue } }

/-- The sink takes the next message, or ends if none can come any more. -/
def discardNext (s : Services) : Services × List LogRecord :=
  match s.queue.get with
  | (.message m, queue) =>
    ({ s.withQueue queue with discarded := s.discarded + 1 }, [discardedLog m])
  | (.pending, _) => (s, [])
  | (.ended, queue) => (s.withQueue queue.dropReceiver, [])

section

variable {s : Services}

theorem discardNext_cons {q : QueueMessage} {rest : List QueueMessage}
    (h : s.queue.waiting = q :: rest) : s.discardNext =
      ({ s.withQueue { s.queue with waiting := rest } with discarded := s.discarded + 1 },
        [discardedLog q]) := by
  simp only [discardNext, Queue.get, h]

theorem discardNext_pending (h : s.queue.waiting = []) (there : s.queue.anySender) :
    s.discardNext = (s, []) := by
  simp only [discardNext, Queue.get, h, if_pos there]

theorem discardNext_ended (h : s.queue.waiting = []) (gone : s.queue.anySender = false) :
    s.discardNext = (s.withQueue s.queue.dropReceiver, []) := by
  simp only [discardNext, Queue.get, h, gone]
  rfl

end

end Services

structure Operation where
  services : Services
  host : Host
  inFlight : Nat := 0
  /-- How the task of the controller broke off, if it did. -/
  crash : Option String := none

inductive Incident
  | move (m : Move)
  | discard
  | connect (client : ClientId)
  | disconnect (client : ClientId)
  | request (r : Http.Request) (upgradable : Bool)
  | use (action : Broadcast.Action)
  | close
  | crash (text : String)
  | abort

def Incident.isAbort : Incident → Bool
  | .abort => true
  | _ => false

namespace Operation

def queue (o : Operation) : Queue QueueMessage := o.services.queue

def scene (o : Operation) (t : ControllerTask) : Scene :=
  ⟨t, o.services.surroundings o.host, o.inFlight⟩

/-- What a move comes to. A task that broke off takes nothing any more. -/
def moved (o : Operation) (t : ControllerTask) (m : Move) : Scene × Moment :=
  if m.isPut then (o.scene t, {})
  else if t.aborted || o.crash.isSome then (((o.scene t).aside m).1, {})
  else (o.scene t).move m

def running? (o : Operation) : Option ControllerTask :=
  if o.crash.isSome then none else o.services.controller.filter fun t => !t.isFinished

def step (o : Operation) : Incident → Operation
  | .move m =>
    match o.services.controller with
    | some t =>
      let (s, x) := o.moved t m
      { o with
        services := o.services.adopt (some s.task) s.around x.output
        host := { o.host with clock := s.around.clock }
        inFlight := s.inFlight }
    | none => o
  | .discard =>
    match o.services.controller with
    | some _ => o
    | none => { o with services := o.services.discardNext.1 }
  | .connect client =>
    { o with services := { o.services with relay := (o.services.relay.connect client).1 } }
  | .disconnect client =>
    { o with services := { o.services with relay := (o.services.relay.disconnect client).1 } }
  | .request _ _ => o
  | .use action =>
    let relay := o.services.relay
    { o with
      services := { o.services with
        relay := { relay with events := (relay.events.act action).2 } } }
  | .close => { o with services := { o.services with relay := o.services.relay.close.2 } }
  | .crash text =>
    match o.running? with
    | some _ =>
      { o with services := o.services.withQueue o.queue.dropReceiver, crash := some text }
    | none => o
  | .abort =>
    match o.services.controller, o.running? with
    | none, _ => { o with services := o.services.withQueue o.queue.dropReceiver }
    | some _, some t =>
      { o with
        services := { o.services.withQueue o.queue.dropReceiver with
          controller := some { t with aborted := true } } }
    | some _, none => o

def logs (o : Operation) : Incident → List LogRecord
  | .move m =>
    match o.services.controller with
    | some t =>
      let asked :=
        match m with
        | .requestStop => t.stop.2.2
        | _ => []
      (asked ++ (o.moved t m).2.output.logs).map fun e => ⟨.core, e⟩
    | none => []
  | .discard =>
    match o.services.controller with
    | some _ => []
    | none => o.services.discardNext.2
  | .connect client => (o.services.relay.connect client).2.map fun e => ⟨.web, e⟩
  | .disconnect client => (o.services.relay.disconnect client).2.map fun e => ⟨.web, e⟩
  | .request r upgradable =>
    (Http.Router.answer o.services.relay r upgradable).2.map fun e => ⟨.web, e⟩
  | .use action =>
    match (o.services.relay.events.act action).1 with
    | .reached _ logs => logs.map fun e => ⟨.core, e⟩
    | _ => []
  | .close | .crash _ | .abort => []

def after (o : Operation) (incidents : List Incident) : Operation := incidents.foldl step o

def along {β : Type} (o : Operation) (f : Operation → Incident → List β)
    (incidents : List Incident) : List β :=
  Trace.along step f o incidents

section

variable (o : Operation)

theorem after_append (incidents more : List Incident) :
    o.after (incidents ++ more) = (o.after incidents).after more := List.foldl_append

theorem after_concat (incidents : List Incident) (i : Incident) :
    o.after (incidents ++ [i]) = (o.after incidents).step i := o.after_append incidents [i]

theorem along_concat {β : Type} (f : Operation → Incident → List β) (incidents : List Incident)
    (i : Incident) :
    o.along f (incidents ++ [i]) = o.along f incidents ++ f (o.after incidents) i :=
  Trace.along_concat step f o incidents i

theorem moved_turn (t : ControllerTask) (m : Move) :
    Scene.QueueTurn (o.scene t) (o.moved t m).2 (o.moved t m).1 ∧
      (o.moved t m).2.accepted = [] := by
  unfold moved
  split
  · exact ⟨.kept rfl (List.append_nil _).symm (fun _ => rfl) rfl rfl, rfl⟩
  · rename_i hput
    have hput : m.isPut = false := Bool.eq_false_iff.2 hput
    split
    · have haside := (o.scene t).aside_queueTurn m
      rw [Scene.aside_accepted hput] at haside
      exact ⟨haside, rfl⟩
    · exact ⟨(o.scene t).queueTurn m, Scene.move_accepted hput⟩

end

end Operation

end SearchRelay
