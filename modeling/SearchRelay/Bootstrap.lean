import SearchRelay.Controller.Task
import SearchRelay.Failure
import SearchRelay.LogFilter
import SearchRelay.Relay

namespace SearchRelay

inductive Phase
  | init
  | controllerSelection
  | starting
  | skipped
  | serverRunning
  | shutdown
  | controllerStop
  | noOp
  | terminated
  deriving DecidableEq, Repr

namespace Phase

def name : Phase → String
  | init => "init"
  | controllerSelection => "controller_selection"
  | starting => "starting"
  | skipped => "skipped"
  | serverRunning => "server_running"
  | shutdown => "shutdown"
  | controllerStop => "controller_stop"
  | noOp => "no_op"
  | terminated => "terminated"

end Phase

structure Host where
  files : FileSystem
  clock : Nat := 0
  /-- Scans have not yet got anywhere. -/
  held : Bool := false
  draw : Nat → Nat := fun n => n

structure Services where
  relay : Relay
  controller : Option ControllerTask := none
  discarded : Nat := 0

namespace Services

def kind? (s : Services) : Option ControllerKind := s.controller.map fun t => t.controller.kind

def surroundings (s : Services) (host : Host) : Surroundings :=
  { files := host.files, clock := host.clock, held := host.held, queue := s.relay.queue,
    draw := host.draw }

def adopt (s : Services) (t : Option ControllerTask) (around : Surroundings)
    (o : ControllerOutput) : Services :=
  let events := o.events.foldl (fun b e => (b.send e.toEmit).2) s.relay.events
  { s with controller := t, relay := { s.relay with queue := around.queue, events } }

def discardedLog (m : QueueMessage) : LogRecord :=
  ⟨.bootstrap, .debug, "No controller, discarding queue message",
    [("message", .plain m.tag), ("client_id", .plain m.client.toText)]⟩

/-- Without a controller the queue is emptied, so that it does not grow. -/
def discard (s : Services) : Services × List LogRecord :=
  let queue := s.relay.queue
  ({ s with
      relay := { s.relay with queue := { queue with waiting := [] } }
      discarded := s.discarded + queue.waiting.length },
    queue.waiting.map discardedLog)

/-- Lets everything happen that can happen now, and says what the clients were told. -/
def settle (s : Services) (host : Host) : Services × List ControllerEvent × List LogRecord :=
  match s.controller with
  | none =>
    let (s, logs) := s.discard
    (s, [], logs)
  | some t =>
    let (t, around, o) := t.settle (s.surroundings host)
    (s.adopt (some t) around o, o.events, o.logs.map fun e => ⟨.core, e⟩)

def idle (host : Host) (s : Services) : Services × List LogRecord :=
  let (s, _, logs) := s.settle host
  (s, logs)

end Services

namespace ControllerKind

def details : ControllerKind → String
  | real => "Real"
  | mock => "Mock"

end ControllerKind

namespace ControllerTask.Outcome

def details : ControllerTask.Outcome → String
  | drained => "Drained"
  | failed text => s!"Failed({Text.Quoted.quote text})"
  | timedOut => "TimedOut"

end ControllerTask.Outcome

structure Report where
  kind : Option ControllerKind
  outcome : Option ControllerTask.Outcome
  deriving DecidableEq, Repr

namespace Report

def kindDetails (r : Report) : String :=
  match r.kind with
  | some k => s!"Some({k.details})"
  | none => "None"

end Report

structure Bootstrap where
  config : Config
  mode : ControllerMode
  phase : Phase := .init
  deriving DecidableEq, Repr

namespace Bootstrap

inductive StartFault
  | capacity (e : Broadcast.CapacityError)
  | controller (e : ControllerError)

def advance (b : Bootstrap) (next : Phase) : Bootstrap × List LogRecord :=
  ({ b with phase := next },
    [⟨.bootstrap, .debug, "Bootstrap phase",
      [("from", .plain b.phase.name), ("to", .plain next.name)]⟩])

def constructing (kind : ControllerKind) (root : Path) : LogRecord :=
  ⟨.bootstrap, .info, "Constructing search controller",
    [("kind", .plain kind.name), ("root", .plain root)]⟩

def noController : LogRecord :=
  ⟨.bootstrap, .info, "No controller requested, serving front end only", []⟩

/-- The relay that serves the clients of a controller, with a warning if its path is unusable. -/
def relay (b : Bootstrap) (events : Broadcast Emit) (label : String) : Relay × List LogRecord :=
  let r : Relay := { events }
  let (r, logs) := r.withPath b.config.server.websocketPath
  (r.withLabel label, logs.map fun e => ⟨.web, e⟩)

/-- Makes the controller that the mode asks for. A controller that cannot be made leaves the phase
at its selection. -/
def start (b : Bootstrap) (host : Host) :
    Except StartFault Services × Bootstrap × List LogRecord :=
  let (b, selecting) := b.advance .controllerSelection
  match Broadcast.ofCapacity b.config.server.broadcastCapacity with
  | .error e => (.error (.capacity e), b, selecting)
  | .ok events =>
    match b.mode.kind? with
    | some kind =>
      let logs := selecting ++ [constructing kind b.config.search.root]
      match Controller.ofSettings kind host.files b.config with
      | .error e => (.error (.controller e), b, logs)
      | .ok controller =>
        let (b, starting) := b.advance .starting
        let (relay, warnings) := b.relay events kind.name
        (.ok { relay, controller := some { controller } }, b, logs ++ starting ++ warnings)
    | none =>
      let (b, skipping) := b.advance .skipped
      let (relay, warnings) := b.relay events "none"
      (.ok { relay }, b, selecting ++ [noController] ++ skipping ++ warnings)

def bind (b : Bootstrap) (n : Network) : Except Failure (SocketAddress × Network) :=
  match n.bind b.config.server.host b.config.server.port with
  | .ok r => .ok r
  | .error e => .error (.server e.toServerError)

def serve (b : Bootstrap) (s : Services) (visit : Services → Services × List LogRecord) :
    Services × Bootstrap × List LogRecord :=
  let (b, running) := b.advance .serverRunning
  let (s, visited) := visit s
  let (_, relay) := s.relay.close
  let (b, ending) := b.advance .shutdown
  ({ s with relay }, b, running ++ visited ++ ending)

def halt (b : Bootstrap) (s : Services) : Services × Bootstrap × List LogRecord :=
  match s.controller with
  | some t =>
    let (b, stopping) := b.advance .controllerStop
    let (_, t, logs) := t.stop
    ({ s with controller := some t }, b, stopping ++ logs.map fun e => ⟨.core, e⟩)
  | none =>
    let (b, stopping) := b.advance .noOp
    (s, b, stopping)

def farewell (s : Services) : Option ControllerTask.Outcome → LogRecord
  | some outcome =>
    ⟨.bootstrap, .info, "Controller shut down", [("outcome", .plain outcome.details)]⟩
  | none =>
    ⟨.bootstrap, .info, "Queue sink stopped", [("discarded", .plain (toString s.discarded))]⟩

def conclude (b : Bootstrap) (s : Services) (outcome : Option ControllerTask.Outcome) :
    Report × Bootstrap × List LogRecord :=
  let (b, ending) := b.advance .terminated
  (⟨s.kind?, outcome⟩, b, farewell s outcome :: ending)

def finish (b : Bootstrap) (s : Services) (host : Host) : Report × Bootstrap × List LogRecord :=
  let (s, b, halting) := b.halt s
  match s.controller with
  | some t =>
    let (outcome, t, _, o) := t.drain (s.surroundings host) b.config.shutdown.drainTimeout
    let (report, b, ending) := b.conclude { s with controller := some t } (some outcome)
    (report, b, halting ++ o.logs.map (fun e => ⟨.core, e⟩) ++ ending)
  | none =>
    let (report, b, ending) := b.conclude s none
    (report, b, halting ++ ending)

def complete (b : Bootstrap) (r : Report) : LogRecord :=
  ⟨.bootstrap, .info, "Bootstrap complete",
    [("phase", .plain b.phase.name), ("kind", .plain r.kindDetails)]⟩

def attend (b : Bootstrap) (s : Services) (n : Network)
    (visit : Services → Services × List LogRecord) :
    Except Failure Unit × Services × Bootstrap × List LogRecord :=
  match b.bind n with
  | .error e => (.error e, s, b, [])
  | .ok _ => (.ok (), b.serve s visit)

/-- The whole lifetime. What was started is finished even if the server fails. -/
def run (b : Bootstrap) (host : Host) (n : Network)
    (visit : Services → Services × List LogRecord) :
    Except StartFault (Except Failure Report) × Bootstrap × List LogRecord :=
  match b.start host with
  | (.error e, b, logs) => (.error e, b, logs)
  | (.ok services, b, started) =>
    let (served, services, b, serving) := b.attend services n visit
    let (report, b, finishing) := b.finish services host
    (.ok (served.map fun _ => report), b,
      started ++ serving ++ finishing ++ [b.complete report])

end Bootstrap

end SearchRelay
