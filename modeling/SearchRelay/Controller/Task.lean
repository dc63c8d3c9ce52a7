import SearchRelay.Config.Basic
import SearchRelay.Controller.Mock
import SearchRelay.Queue
import SearchRelay.Ticker

namespace SearchRelay

inductive Controller
  | real (c : RealController)
  | mock (c : MockController)

namespace Controller

def kind : Controller → ControllerKind
  | real _ => .real
  | mock _ => .mock

def ofSettings (kind : ControllerKind) (fs : FileSystem) (config : Config) :
    Except ControllerError Controller :=
  match kind with
  | .real =>
    (RealController.ofSettings fs config.search.root config.search.pathMasks
      config.search.rescanInterval).map .real
  | .mock =>
    .ok (.mock (MockController.ofSettings config.search.root config.mock.progressInterval
      config.mock.totalFiles))

def phase : Controller → RunPhase
  | real c => c.phase
  | mock c => c.phase

def isScanning : Controller → Bool
  | real c => c.isScanning
  | mock _ => false

def wantsMessage : Controller → Bool
  | real c => c.wantsMessage
  | mock c => c.wantsMessage

def wantsTick : Controller → Bool
  | real c => c.wantsTick
  | mock c => c.wantsTick

def scan (fs : FileSystem) : Controller → Except ControllerError FileIndex
  | real c => FileIndex.scan fs c.root c.masks
  | mock _ => .ok ∅

def step (now : Timestamp) (input : ControllerInput) : Controller → Controller × ControllerOutput
  | real c =>
    let (c, o) := c.step now input
    (.real c, o)
  | mock c =>
    let (c, o) := c.step now input
    (.mock c, o)

/-- The ticker of a controller that takes up its service: the first step of the mock controller is
due at once, the first rescan only after a period. -/
def ticker? (now : Nat) : Controller → Option Ticker
  | real c => c.period.map fun p => ⟨p, now + p⟩
  | mock c => some ⟨c.period, now⟩

end Controller

structure Surroundings where
  files : FileSystem
  clock : Nat := 0
  held : Bool := false
  queue : Queue QueueMessage := {}
  draw : Nat → Nat := fun n => n

structure ControllerTask where
  controller : Controller
  stopRequested : Bool := false
  ticker : Option Ticker := none
  aborted : Bool := false
  ticks : Nat := 0

namespace ControllerTask

def timestamp (clock : Nat) : Timestamp :=
  ⟨clock / 86400000, clock / 1000 % 86400, clock % 1000 * 1000000⟩

def result? (t : ControllerTask) : Option (Except ControllerError Unit) :=
  match t.controller.phase with
  | .ended r => some r
  | _ => none

def isFinished (t : ControllerTask) : Bool := t.aborted || t.result?.isSome

def isTickDue (t : ControllerTask) (clock : Nat) : Bool :=
  t.controller.wantsTick && t.ticker.any fun k => k.isDue clock

/-- The input that comes first of all that are there: a stop, then a scan that is over, then a
message, then a tick. -/
def nextInput (t : ControllerTask) (s : Surroundings) : Option ControllerInput :=
  match t.controller.phase with
  | .idle => some .start
  | .ended _ => none
  | _ =>
    if t.stopRequested then some .stop
    else if t.controller.isScanning && !s.held then some (.scanned (t.controller.scan s.files))
    else
      match (if t.controller.wantsMessage then s.queue.get.1 else .pending) with
      | .message m => some (.message m)
      | .ended => some .queueEnded
      | .pending => if t.isTickDue s.clock then some (.tick (s.draw t.ticks)) else none

def take (t : ControllerTask) (s : Surroundings) (input : ControllerInput) :
    ControllerTask × Surroundings × ControllerOutput :=
  let (c, output) := t.controller.step (timestamp s.clock) input
  let ticker :=
    match t.controller.phase, c.phase, input with
    | .serving, _, .tick _ => t.ticker.map fun k => k.take s.clock
    | .serving, _, _ => t.ticker
    | _, .serving, _ => c.ticker? s.clock
    | _, _, _ => t.ticker
  let ticks :=
    match input with
    | .tick _ => t.ticks + 1
    | _ => t.ticks
  let queue :=
    match input with
    | .message _ => s.queue.get.2
    | _ => s.queue
  let ended : Bool := c.phase.isEnded
  let logs :=
    match c.phase with
    | .ended (.error e) =>
      [⟨.error, "Controller exited with error",
        [("kind", .plain c.kind.name), ("error", .plain e.message)]⟩]
    | _ => []
  ({ t with controller := c, ticker, ticks },
    { s with queue := if ended then queue.dropReceiver else queue },
    { output with logs := output.logs ++ logs })

def settleLoop : Nat → ControllerTask → Surroundings → ControllerOutput →
    ControllerTask × Surroundings × ControllerOutput
  | 0, t, s, o => (t, s, o)
  | fuel + 1, t, s, o =>
    if t.isFinished then (t, s, o)
    else
      match t.nextInput s with
      | none => (t, s, o)
      | some input =>
        let (t, s, p) := t.take s input
        settleLoop fuel t s (o ++ p)

/-- Runs a task until nothing more can happen. A message is one input, and so few ticks can be due
at a time that a constant covers the rest. -/
def settle (t : ControllerTask) (s : Surroundings) :
    ControllerTask × Surroundings × ControllerOutput :=
  settleLoop (s.queue.waiting.length + 40) t s {}

def repeatedStop (kind : ControllerKind) : LogEntry :=
  ⟨.warn, "stop() called more than once", [("kind", .plain kind.name)]⟩

def stop (t : ControllerTask) : Bool × ControllerTask × List LogEntry :=
  (!t.stopRequested, { t with stopRequested := true },
    if t.stopRequested then [repeatedStop t.controller.kind] else [])

inductive Outcome
  | drained
  | failed (text : String)
  | timedOut
  deriving DecidableEq, Repr

def outcome? (t : ControllerTask) : Option Outcome :=
  t.result?.map fun
    | .ok () => .drained
    | .error e => .failed e.message

def late (t : ControllerTask) (drain : Nat) : LogEntry :=
  ⟨.warn, "Controller did not stop in time, aborting",
    [("kind", .plain t.controller.kind.name), ("drain_ms", .plain (toString drain))]⟩

def spend (t : ControllerTask) (s : Surroundings) (milliseconds : Nat) :
    ControllerTask × Surroundings × ControllerOutput :=
  if milliseconds = 0 then (t, s, {}) else t.settle s

/-- Gives a controller some milliseconds to end by itself, and ends it if it does not. -/
def drain (t : ControllerTask) (s : Surroundings) (drain : Nat) :
    Outcome × ControllerTask × Surroundings × ControllerOutput :=
  let (t, s, o) := t.spend s drain
  match t.outcome? with
  | some outcome => (outcome, t, s, o)
  | none =>
    (.timedOut, { t with aborted := true }, { s with queue := s.queue.dropReceiver },
      { o with logs := o.logs ++ [t.late drain] })

def shutdown (t : ControllerTask) (s : Surroundings) (drain : Nat) :
    Outcome × ControllerTask × Surroundings × ControllerOutput :=
  let (_, t, logs) := t.stop
  let (outcome, t, s, o) := t.drain s drain
  (outcome, t, s, { o with logs := logs ++ o.logs })

end ControllerTask

end SearchRelay
