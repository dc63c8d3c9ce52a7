import SearchRelay.Controller.Task
import SearchRelay.Files.Entry

namespace SearchRelay

inductive Stage
  | made (t : ControllerTask)
  | running (t : ControllerTask)
  | gone

namespace Stage

def task? : Stage → Option ControllerTask
  | made t | running t => some t
  | gone => none

end Stage

structure Rehearsal where
  stage : Stage
  surroundings : Surroundings

namespace Rehearsal

/-- Makes a controller, which has the receiving end of the queue from then on, and says its kind.
What cannot be made is gone, and its end of the queue with it. -/
def construct (kind : ControllerKind) (surroundings : Surroundings) (config : Config) :
    Except ControllerError ControllerKind × Rehearsal :=
  match Controller.ofSettings kind surroundings.files config with
  | .error e =>
    (.error e, ⟨.gone, { surroundings with queue := surroundings.queue.dropReceiver }⟩)
  | .ok c => (.ok c.kind, ⟨.made { controller := c }, surroundings⟩)

def ofSettings (kind : ControllerKind) (surroundings : Surroundings) (config : Config) :
    Except ControllerError Rehearsal :=
  let (made, r) := construct kind surroundings config
  made.map fun _ => r

def settle (r : Rehearsal) : Rehearsal × ControllerOutput :=
  match r.stage with
  | .running t =>
    let (t, s, o) := t.settle r.surroundings
    (⟨.running t, s⟩, o)
  | _ => (r, {})

inductive Absence
  | noController
  | noHandle
  | noSender
  deriving DecidableEq, Repr

namespace Absence

def message : Absence → String
  | noController => "no controller"
  | noHandle => "no handle"
  | noSender => "no sender"

end Absence

def spawn (r : Rehearsal) : Except Absence ControllerKind × Rehearsal :=
  match r.stage with
  | .made t => (.ok t.controller.kind, { r with stage := .running t })
  | _ => (.error .noController, r)

def kind (r : Rehearsal) : Except Absence ControllerKind :=
  match r.stage.task? with
  | some t => .ok t.controller.kind
  | none => .error .noController

def isStopRequested (r : Rehearsal) : Except Absence Bool :=
  match r.stage.task? with
  | some t => .ok t.stopRequested
  | none => .error .noController

def stop (r : Rehearsal) : Except Absence Bool × Rehearsal × List LogEntry :=
  match r.stage with
  | .made t =>
    let (first, t, logs) := t.stop
    (.ok first, { r with stage := .made t }, logs)
  | .running t =>
    let (first, t, logs) := t.stop
    (.ok first, { r with stage := .running t }, logs)
  | .gone => (.error .noController, r, [])

def finished? (r : Rehearsal) : Option Bool :=
  match r.stage with
  | .running t => some t.isFinished
  | _ => none

def runAgain (r : Rehearsal) : Except Absence ControllerError :=
  match r.stage with
  | .made _ => .error .noHandle
  | .running _ => .ok .alreadyRunning
  | .gone => .error .noController

def shutdown (r : Rehearsal) (drain : Nat) :
    Except Absence ControllerTask.Outcome × Rehearsal × ControllerOutput :=
  match r.stage with
  | .running t =>
    let (outcome, _, s, o) := t.shutdown r.surroundings drain
    (.ok outcome, ⟨.gone, s⟩, o)
  | _ => (.error .noHandle, r, {})

inductive Delivery
  | accepted
  | closed (message : QueueMessage)
  | noSender
  deriving DecidableEq, Repr

def put (r : Rehearsal) (m : QueueMessage) : Delivery × Rehearsal :=
  if r.surroundings.queue.hasSender 0 then
    let (outcome, queue) := r.surroundings.queue.put m
    let delivery :=
      match outcome with
      | .accepted => .accepted
      | .closed m => .closed m
    (delivery, { r with surroundings := { r.surroundings with queue } })
  else (.noSender, r)

def putMany (r : Rehearsal) : List QueueMessage → List Delivery × Rehearsal
  | [] => ([], r)
  | m :: ms =>
    let (d, r) := r.put m
    let (ds, r) := r.putMany ms
    (d :: ds, r)

def closeQueue (r : Rehearsal) : Bool × Rehearsal :=
  let s := r.surroundings
  (s.queue.hasSender 0, { r with surroundings := { s with queue := s.queue.dropSender 0 } })

def queueClosed? (r : Rehearsal) : Option Bool :=
  if r.surroundings.queue.hasSender 0 then some r.surroundings.queue.isClosed else none

def advance (r : Rehearsal) (milliseconds : Nat) : Rehearsal :=
  let s := r.surroundings
  { r with surroundings := { s with clock := s.clock + milliseconds } }

def hold (r : Rehearsal) : Rehearsal :=
  { r with surroundings := { r.surroundings with held := true } }

def release (r : Rehearsal) : Bool × Rehearsal :=
  (r.surroundings.held, { r with surroundings := { r.surroundings with held := false } })

def changeFiles (r : Rehearsal) (changes : List TreeChange) : Rehearsal :=
  let s := r.surroundings
  { r with surroundings := { s with files := TreeChange.applyAll s.files changes } }

abbrev maxAdvances : Nat := 2000

/-- Advances again and again until the controller says that it is ready, at most `n` times. -/
def untilReadyLoop (milliseconds : Nat) :
    Nat → Rehearsal → ControllerOutput → Bool × Rehearsal × ControllerOutput
  | 0, r, o => (false, r, o)
  | n + 1, r, o =>
    let (r, p) := (r.advance milliseconds).settle
    let o := o ++ p
    if p.events.any ControllerEvent.isReady then (true, r, o)
    else untilReadyLoop milliseconds n r o

def untilReady (r : Rehearsal) (milliseconds : Nat) : Bool × Rehearsal × ControllerOutput :=
  untilReadyLoop milliseconds maxAdvances r {}

end Rehearsal

end SearchRelay
