import SearchRelay.Controller.Mock

namespace SearchRelay.MockController

/-- The longest step of a run that has so many files to find. -/
def longest (total : Nat) : Nat := max 1 (total / 10)

def stateAt (total found : Nat) : ControllerState := if found < total then .indexing else .ready

def Awaits (c : MockController) : ControllerInput → Prop
  | .start => c.phase = .idle
  | .stop => c.phase = .serving
  | .scanned _ => False
  | .message _ => c.wantsMessage
  | .queueEnded => c.wantsMessage
  | .tick _ => c.wantsTick

theorem state_eq (c : MockController) : c.state = stateAt c.total c.scanned := by
  rcases Nat.lt_or_ge c.scanned c.total with h | h
  · simp [state, isComplete, stateAt, h, Nat.not_le.2 h]
  · simp [state, isComplete, stateAt, h, Nat.not_lt.2 h]

inductive Turn (now : Timestamp) (c : MockController) :
    ControllerInput → MockController → ControllerOutput → Prop
  | start (idle : c.phase = .idle) :
      Turn now c .start { c with phase := .serving } { events := [c.status now c.state] }
  | stop (serving : c.phase = .serving) :
      Turn now c .stop { c with phase := .ended (.ok ()) } { events := [c.status now .stopped] }
  | message (serving : c.phase = .serving) (listens : c.queueOpen) (m : QueueMessage) :
      Turn now c (.message m) c { events := [c.status now c.state] }
  | queueEnded (serving : c.phase = .serving) (listens : c.queueOpen) :
      Turn now c .queueEnded { c with queueOpen := false } {}
  | advanced (serving : c.phase = .serving) (draw : Nat)
      (short : c.scanned + c.stepOf draw < c.total) :
      Turn now c (.tick draw) { c with scanned := c.scanned + c.stepOf draw }
        { events := [.progress ⟨c.scanned + c.stepOf draw, c.total⟩] }
  | completed (serving : c.phase = .serving) (short : c.scanned < c.total) (draw : Nat)
      (reached : c.total ≤ c.scanned + c.stepOf draw) :
      Turn now c (.tick draw) { c with scanned := c.total }
        { events := [.progress ⟨c.total, c.total⟩,
          { c with scanned := c.total }.status now .ready] }

namespace Turn

variable {now : Timestamp} {c c' : MockController} {input : ControllerInput}
  {o : ControllerOutput}

theorem keeps (h : Turn now c input c' o) : c'.root = c.root ∧ c'.total = c.total := by
  cases h <;> exact ⟨rfl, rfl⟩

/-- A status tells what the controller holds after the turn. Unless the run is over, its state is
that of the controller. -/
theorem status_eq (h : Turn now c input c' o) {p : StatusPayload} (hp : .status p ∈ o.events) :
    .status p = c'.status now p.state ∧ (p.state = .stopped ∨ p.state = c'.state) := by
  cases h with
  | start | message =>
    obtain rfl := ControllerEvent.status.inj (List.mem_singleton.1 hp)
    exact ⟨rfl, .inr rfl⟩
  | stop =>
    obtain rfl := ControllerEvent.status.inj (List.mem_singleton.1 hp)
    exact ⟨rfl, .inl rfl⟩
  | completed =>
    rcases List.mem_cons.1 hp with hp | hp
    · cases hp
    · obtain rfl := ControllerEvent.status.inj (List.mem_singleton.1 hp)
      exact ⟨rfl, .inr (by simp [state, isComplete])⟩
  | queueEnded => cases hp
  | advanced => cases List.mem_singleton.1 hp

theorem not_indexing (h : Turn now c input c' o) : c'.phase ≠ .indexing := by
  cases h with
  | start | stop => simp
  | message serving | queueEnded serving | advanced serving | completed serving => simp [serving]

end Turn

variable {c : MockController}

theorem isServing_iff : c.isServing ↔ c.phase = .serving := by
  unfold isServing
  cases c.phase <;> simp

theorem wantsMessage_iff : c.wantsMessage ↔ c.phase = .serving ∧ c.queueOpen := by
  rw [wantsMessage, Bool.and_eq_true, isServing_iff]

theorem wantsTick_iff : c.wantsTick ↔ c.phase = .serving ∧ c.scanned < c.total := by
  rw [wantsTick, Bool.and_eq_true, isServing_iff, Bool.not_eq_true', isComplete,
    decide_eq_false_iff_not, Nat.not_le]

theorem longest_pos (total : Nat) : 0 < longest total :=
  Nat.lt_of_lt_of_le Nat.one_pos (Nat.le_max_left _ _)

theorem stepOf_eq (c : MockController) (draw : Nat) :
    c.stepOf draw = draw % longest c.total + 1 := by
  rw [stepOf, maxStep, longest, Nat.max_comm]

/-- Whatever is short enough may be drawn. -/
theorem exists_draw (c : MockController) {n : Nat} (hpos : 1 ≤ n) (hn : n ≤ longest c.total) :
    ∃ draw, c.stepOf draw = n := by
  refine ⟨n - 1, ?_⟩
  rw [stepOf_eq, Nat.mod_eq_of_lt (by omega)]
  omega

section

variable (now : Timestamp)

theorem advance_short {draw : Nat} (h : c.scanned + c.stepOf draw < c.total)
    (room : c.total ≤ maxFiles) :
    c.advance now draw = ({ c with scanned := c.scanned + c.stepOf draw },
      { events := [.progress ⟨c.scanned + c.stepOf draw, c.total⟩] }) := by
  have hcount : min (min (c.scanned + c.stepOf draw) maxFiles) c.total =
      c.scanned + c.stepOf draw := by omega
  simp only [advance, hcount, isComplete]
  rw [if_neg (by simpa using h)]

/-- A count that would be too large is full, and then it is all the files all the same. -/
theorem advance_reached {draw : Nat} (h : c.total ≤ c.scanned + c.stepOf draw)
    (room : c.total ≤ maxFiles) :
    c.advance now draw = ({ c with scanned := c.total },
      { events := [.progress ⟨c.total, c.total⟩,
        { c with scanned := c.total }.status now .ready] }) := by
  have hcount : min (min (c.scanned + c.stepOf draw) maxFiles) c.total = c.total := by omega
  simp only [advance, hcount, isComplete]
  rw [if_pos (by simp)]

theorem turn_of_awaits (room : c.total ≤ maxFiles) {input : ControllerInput}
    (h : c.Awaits input) : Turn now c input (c.step now input).1 (c.step now input).2 := by
  cases input with
  | start =>
    have hp : c.phase = .idle := h
    simp only [step, hp]
    exact .start hp
  | stop =>
    rw [step, if_pos (isServing_iff.2 h)]
    exact .stop h
  | scanned result => exact h.elim
  | message m =>
    have hw : c.wantsMessage := h
    obtain ⟨hp, hq⟩ := wantsMessage_iff.1 hw
    rw [step, if_pos hw]
    exact .message hp hq m
  | queueEnded =>
    have hw : c.wantsMessage := h
    obtain ⟨hp, hq⟩ := wantsMessage_iff.1 hw
    rw [step, if_pos hw]
    exact .queueEnded hp hq
  | tick draw =>
    have hw : c.wantsTick := h
    obtain ⟨hp, hs⟩ := wantsTick_iff.1 hw
    rw [step, if_pos hw]
    rcases Nat.lt_or_ge (c.scanned + c.stepOf draw) c.total with hshort | hreached
    · rw [advance_short now hshort room]
      exact .advanced hp draw hshort
    · rw [advance_reached now hreached room]
      exact .completed hp hs draw hreached

end

end SearchRelay.MockController
