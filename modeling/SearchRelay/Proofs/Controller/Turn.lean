import SearchRelay.Controller.Real

namespace SearchRelay.RealController

def fresh (root : Path) (masks : List String) (period : Option Nat) : RealController :=
  { root, masks, period }

def Awaits (c : RealController) : ControllerInput → Prop
  | .start => c.phase = .idle
  | .stop => c.phase = .indexing ∨ c.phase = .serving
  | .scanned _ => c.isScanning
  | .message _ => c.wantsMessage
  | .queueEnded => c.wantsMessage
  | .tick _ => c.wantsTick

inductive Turn (now : Timestamp) (c : RealController) :
    ControllerInput → RealController → ControllerOutput → Prop
  | start (idle : c.phase = .idle) :
      Turn now c .start { c with phase := .indexing }
        { events := [c.status now .indexing], scans := 1 }
  | stop (running : c.phase = .indexing ∨ c.phase = .serving) :
      Turn now c .stop { c with phase := .ended (.ok ()), rescanning := false }
        { events := [c.status now .stopped] }
  | indexed (indexing : c.phase = .indexing) (index : FileIndex) :
      Turn now c (.scanned (.ok index)) { c with index, phase := .serving }.countScan
        { events := [{ c with index, phase := .serving }.countScan.status now .ready] }
  | failed (indexing : c.phase = .indexing) (e : ControllerError) :
      Turn now c (.scanned (.error e)) { c with phase := .ended (.error e) } {}
  | rescanned (serving : c.phase = .serving) (busy : c.rescanning) (index : FileIndex) :
      Turn now c (.scanned (.ok index)) (c.adopt index).1 (c.adopt index).2
  | rescanFailed (serving : c.phase = .serving) (busy : c.rescanning) (e : ControllerError) :
      Turn now c (.scanned (.error e)) { c with rescanning := false }
        { logs := [rescanFailed e] }
  | message (serving : c.phase = .serving) (listens : c.queueOpen) (m : QueueMessage) :
      Turn now c (.message m) c { events := [c.status now .ready] }
  | queueEnded (serving : c.phase = .serving) (listens : c.queueOpen) :
      Turn now c .queueEnded { c with queueOpen := false } {}
  | tick (serving : c.phase = .serving) (free : c.rescanning = false) (draw : Nat) :
      Turn now c (.tick draw) { c with rescanning := true } { scans := 1 }

namespace Turn

variable {now : Timestamp} {c c' : RealController} {input : ControllerInput}
  {o : ControllerOutput}

theorem keeps (h : Turn now c input c' o) :
    c'.root = c.root ∧ c'.masks = c.masks ∧ c'.period = c.period := by
  cases h <;> exact ⟨rfl, rfl, rfl⟩

theorem not_ended (h : Turn now c input c' o) : c.phase.isEnded = false := by
  cases h with
  | stop hp => rcases hp with hp | hp <;> rw [hp] <;> rfl
  | start hp => rw [hp]; rfl
  | indexed hp | failed hp => rw [hp]; rfl
  | rescanned hp | rescanFailed hp | message hp | queueEnded hp | tick hp => rw [hp]; rfl

theorem status_eq (h : Turn now c input c' o) {p : StatusPayload} (hp : .status p ∈ o.events) :
    p.files = c'.index.size ∧ p.scans = c'.scans := by
  cases h with
  | start | stop | indexed | message =>
    simp only [status, List.mem_singleton, ControllerEvent.status.injEq] at hp
    subst hp
    exact ⟨rfl, rfl⟩
  | rescanned _ _ index =>
    simp only [adopt] at hp
    split at hp <;> simp at hp
  | _ => simp at hp

/-- Only a rescan has anything to tell but a status. -/
theorem rescanned_of_update (h : Turn now c input c' o) {u : IndexUpdate}
    (hu : .indexUpdated u ∈ o.events) :
    c.phase = .serving ∧ ∃ index, input = .scanned (.ok index) := by
  cases h with
  | rescanned serving _ index => exact ⟨serving, index, rfl⟩
  | _ => simp [status] at hu

end Turn

theorem isScanning_iff {c : RealController} :
    c.isScanning ↔ c.phase = .indexing ∨ (c.phase = .serving ∧ c.rescanning) := by
  unfold isScanning
  cases c.phase <;> simp

theorem wantsMessage_iff {c : RealController} :
    c.wantsMessage ↔ c.phase = .serving ∧ c.queueOpen := by
  unfold wantsMessage
  cases c.phase <;> simp

theorem wantsTick_iff {c : RealController} :
    c.wantsTick ↔ c.phase = .serving ∧ c.rescanning = false := by
  unfold wantsTick
  cases c.phase <;> simp

section

variable {c : RealController} (now : Timestamp)

theorem step_start (h : c.phase = .idle) : c.step now .start =
    ({ c with phase := .indexing }, { events := [c.status now .indexing], scans := 1 }) := by
  unfold step
  simp only [h]

theorem step_stop (h : c.phase = .indexing ∨ c.phase = .serving) : c.step now .stop =
    ({ c with phase := .ended (.ok ()), rescanning := false },
      { events := [c.status now .stopped] }) := by
  unfold step
  rcases h with h | h <;> simp only [h]

theorem step_indexed (h : c.phase = .indexing) (index : FileIndex) :
    c.step now (.scanned (.ok index)) = ({ c with index, phase := .serving }.countScan,
      { events := [{ c with index, phase := .serving }.countScan.status now .ready] }) := by
  unfold step
  simp only [h]

theorem step_failed (h : c.phase = .indexing) (e : ControllerError) :
    c.step now (.scanned (.error e)) = ({ c with phase := .ended (.error e) }, {}) := by
  unfold step
  simp only [h]

theorem step_rescanned (h : c.phase = .serving) (hb : c.rescanning) (index : FileIndex) :
    c.step now (.scanned (.ok index)) = c.adopt index := by
  unfold step
  simp only [h, if_pos hb]

theorem step_rescanFailed (h : c.phase = .serving) (hb : c.rescanning) (e : ControllerError) :
    c.step now (.scanned (.error e)) =
      ({ c with rescanning := false }, { logs := [rescanFailed e] }) := by
  unfold step
  simp only [h, if_pos hb]

theorem step_message (h : c.wantsMessage) (m : QueueMessage) :
    c.step now (.message m) = (c, { events := [c.status now .ready] }) := if_pos h

theorem step_queueEnded (h : c.wantsMessage) :
    c.step now .queueEnded = ({ c with queueOpen := false }, {}) := if_pos h

theorem step_tick (h : c.wantsTick) (draw : Nat) :
    c.step now (.tick draw) = ({ c with rescanning := true }, { scans := 1 }) := if_pos h

theorem turn_of_awaits {input : ControllerInput} (h : c.Awaits input) :
    Turn now c input (c.step now input).1 (c.step now input).2 := by
  cases input with
  | start =>
    rw [step_start now h]
    exact .start h
  | stop =>
    rw [step_stop now h]
    exact .stop h
  | scanned result =>
    rcases isScanning_iff.1 h with hp | ⟨hp, hb⟩
    · cases result with
      | ok index =>
        rw [step_indexed now hp]
        exact .indexed hp index
      | error e =>
        rw [step_failed now hp]
        exact .failed hp e
    · cases result with
      | ok index =>
        rw [step_rescanned now hp hb]
        exact .rescanned hp hb index
      | error e =>
        rw [step_rescanFailed now hp hb]
        exact .rescanFailed hp hb e
  | message m =>
    obtain ⟨hp, hq⟩ := wantsMessage_iff.1 h
    rw [step_message now h]
    exact .message hp hq m
  | queueEnded =>
    obtain ⟨hp, hq⟩ := wantsMessage_iff.1 h
    rw [step_queueEnded now h]
    exact .queueEnded hp hq
  | tick draw =>
    obtain ⟨hp, hf⟩ := wantsTick_iff.1 h
    rw [step_tick now h]
    exact .tick hp hf draw

end

end SearchRelay.RealController
