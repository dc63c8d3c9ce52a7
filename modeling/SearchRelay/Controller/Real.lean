import SearchRelay.FileIndex
import SearchRelay.Log

namespace SearchRelay

inductive ControllerInput
  | start
  | stop
  | scanned (result : Except ControllerError FileIndex)
  | message (m : QueueMessage)
  | queueEnded
  | tick (draw : Nat)

structure ControllerOutput where
  events : List ControllerEvent := []
  logs : List LogEntry := []
  scans : Nat := 0

namespace ControllerOutput

instance : Append ControllerOutput where
  append o p := ⟨o.events ++ p.events, o.logs ++ p.logs, o.scans + p.scans⟩

end ControllerOutput

inductive RunPhase
  | idle
  | indexing
  | serving
  | ended (result : Except ControllerError Unit)

namespace RunPhase

def isEnded : RunPhase → Bool
  | ended _ => true
  | _ => false

end RunPhase

structure RealController where
  root : Path
  masks : List String
  /-- Milliseconds between rescans, if there are any. -/
  period : Option Nat
  phase : RunPhase := .idle
  index : FileIndex := ∅
  scans : Nat := 0
  queueOpen : Bool := true
  rescanning : Bool := false

namespace RealController

abbrev maxScans : Nat := Nat.pow 2 64 - 1

def ofSettings (fs : FileSystem) (root : Path) (masks : List String) (intervalSeconds : Nat) :
    Except ControllerError RealController :=
  match fs.lookup root with
  | .error e => .error (if e.isNotFound then .rootNotFound root else .io root e)
  | .ok n =>
    if n.isDirectory then
      let period := if intervalSeconds = 0 then none else some (intervalSeconds * 1000)
      .ok { root, masks, period }
    else .error (.rootNotDirectory root)

def status (c : RealController) (now : Timestamp) (state : ControllerState) : ControllerEvent :=
  .status ⟨state, c.root, c.index.size, c.scans, false, now⟩

def countScan (c : RealController) : RealController :=
  { c with scans := min (c.scans + 1) maxScans }

def isScanning (c : RealController) : Bool :=
  match c.phase with
  | .indexing => true
  | .serving => c.rescanning
  | _ => false

def wantsMessage (c : RealController) : Bool :=
  match c.phase with
  | .serving => c.queueOpen
  | _ => false

/-- Ticks are not looked at while a scan is under way. -/
def wantsTick (c : RealController) : Bool :=
  match c.phase with
  | .serving => !c.rescanning
  | _ => false

/-- Adopts what a rescan found; clients hear of it only if it is something new. -/
def adopt (c : RealController) (fresh : FileIndex) : RealController × ControllerOutput :=
  let update := c.index.diff fresh
  let c := { c with index := fresh, rescanning := false }.countScan
  (c, { events := if 0 < update.added ∨ 0 < update.removed then [.indexUpdated update] else [] })

def rescanFailed (e : ControllerError) : LogEntry :=
  ⟨.warn, "Rescan failed, keeping previous index", [("error", .plain e.message)]⟩

def step (c : RealController) (now : Timestamp) :
    ControllerInput → RealController × ControllerOutput
  | .start =>
    match c.phase with
    | .idle => ({ c with phase := .indexing }, { events := [c.status now .indexing], scans := 1 })
    | _ => (c, {})
  | .stop =>
    match c.phase with
    | .indexing | .serving =>
      ({ c with phase := .ended (.ok ()), rescanning := false },
        { events := [c.status now .stopped] })
    | _ => (c, {})
  | .scanned result =>
    match c.phase, result with
    | .indexing, .ok index =>
      let c := { c with index, phase := .serving }.countScan
      (c, { events := [c.status now .ready] })
    | .indexing, .error e => ({ c with phase := .ended (.error e) }, {})
    | .serving, .ok fresh => if c.rescanning then c.adopt fresh else (c, {})
    | .serving, .error e =>
      if c.rescanning then ({ c with rescanning := false }, { logs := [rescanFailed e] })
      else (c, {})
    | _, _ => (c, {})
  | .message _ => if c.wantsMessage then (c, { events := [c.status now .ready] }) else (c, {})
  | .queueEnded => if c.wantsMessage then ({ c with queueOpen := false }, {}) else (c, {})
  | .tick _ => if c.wantsTick then ({ c with rescanning := true }, { scans := 1 }) else (c, {})

end RealController

end SearchRelay
