import SearchRelay.Controller.Real

namespace SearchRelay

structure MockController where
  root : Path
  /-- Milliseconds between two steps, at least one. -/
  period : Nat
  total : Nat
  phase : RunPhase := .idle
  scanned : Nat := 0
  queueOpen : Bool := true

namespace MockController

def ofSettings (root : Path) (interval total : Nat) : MockController :=
  { root, period := max interval 1, total }

abbrev maxFiles : Nat := Nat.pow 2 64 - 1

def maxStep (c : MockController) : Nat := max (c.total / 10) 1

def stepOf (c : MockController) (draw : Nat) : Nat := draw % c.maxStep + 1

def isComplete (c : MockController) : Bool := c.total ≤ c.scanned

def state (c : MockController) : ControllerState := if c.isComplete then .ready else .indexing

/-- Every status but one during the scan counts a scan. -/
def status (c : MockController) (now : Timestamp) (state : ControllerState) : ControllerEvent :=
  .status ⟨state, c.root, c.scanned, if state = .indexing then 0 else 1, true, now⟩

def isServing (c : MockController) : Bool :=
  match c.phase with
  | .serving => true
  | _ => false

def wantsMessage (c : MockController) : Bool := c.isServing && c.queueOpen

def wantsTick (c : MockController) : Bool := c.isServing && !c.isComplete

/-- Adds a step to the count, which stays where it is full. -/
def advance (c : MockController) (now : Timestamp) (draw : Nat) :
    MockController × ControllerOutput :=
  let c := { c with scanned := min (min (c.scanned + c.stepOf draw) maxFiles) c.total }
  let progress : ControllerEvent := .progress ⟨c.scanned, c.total⟩
  (c, { events := progress :: (if c.isComplete then [c.status now .ready] else []) })

def step (c : MockController) (now : Timestamp) :
    ControllerInput → MockController × ControllerOutput
  | .start =>
    match c.phase with
    | .idle => ({ c with phase := .serving }, { events := [c.status now c.state] })
    | _ => (c, {})
  | .stop =>
    if c.isServing then
      ({ c with phase := .ended (.ok ()) }, { events := [c.status now .stopped] })
    else (c, {})
  | .message _ => if c.wantsMessage then (c, { events := [c.status now c.state] }) else (c, {})
  | .queueEnded => if c.wantsMessage then ({ c with queueOpen := false }, {}) else (c, {})
  | .tick draw => if c.wantsTick then c.advance now draw else (c, {})
  | .scanned _ => (c, {})

end MockController

end SearchRelay
