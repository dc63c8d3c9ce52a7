import SearchRelay.Proofs.Controller.Scene
import SearchRelay.Proofs.Controller.Turn

namespace SearchRelay

namespace ControllerTask

variable {t : ControllerTask} {c : RealController} (around : Surroundings)
  (input : ControllerInput)

theorem take_controller (hc : t.controller = .real c) : (t.take around input).1.controller =
    .real (c.step (timestamp around.clock) input).1 := by
  unfold take
  simp only [hc, Controller.step]

theorem take_output (hc : t.controller = .real c) :
    (t.take around input).2.2.events = (c.step (timestamp around.clock) input).2.events ∧
      (t.take around input).2.2.scans = (c.step (timestamp around.clock) input).2.scans := by
  unfold take
  simp only [hc, Controller.step, and_self]

theorem take_queue_of_message (q : QueueMessage)
    (h : (t.take around (.message q)).1.controller.phase.isEnded = false) :
    (t.take around (.message q)).2.1.queue = around.queue.get.2 := by
  unfold take at h ⊢
  simp only at h ⊢
  rw [h]
  rfl

theorem take_queue_of_other (hq : ∀ q, input ≠ .message q)
    (h : (t.take around input).1.controller.phase.isEnded = false) :
    (t.take around input).2.1.queue = around.queue := by
  cases input with
  | message q => exact absurd rfl (hq q)
  | _ =>
    unfold take at h ⊢
    simp only at h ⊢
    rw [h]
    rfl

theorem take_ticker_of_serving (hp : t.controller.phase = .serving) :
    (t.take around input).1.ticker.isSome = t.ticker.isSome := by
  unfold take
  simp only [hp]
  cases input <;> simp

theorem take_ticker_of_other (hp : t.controller.phase ≠ .serving)
    (hs : (t.controller.step (timestamp around.clock) input).1.phase = .serving) :
    (t.take around input).1.ticker =
      (t.controller.step (timestamp around.clock) input).1.ticker? around.clock := by
  unfold take
  simp only [hs]
  cases hphase : t.controller.phase with
  | serving => exact absurd hphase hp
  | _ => rfl

theorem take_ticker_of_idle (hp : t.controller.phase ≠ .serving)
    (hs : (t.controller.step (timestamp around.clock) input).1.phase ≠ .serving) :
    (t.take around input).1.ticker = t.ticker := by
  unfold take
  dsimp only
  split <;> simp_all

end ControllerTask

namespace Scene

/-- What a move comes to when the controller is a real one. -/
inductive Passage (s : Scene) (c : RealController) (x : Moment) (s' : Scene) (c' : RealController) :
    Prop
  | turn {input : ControllerInput} {o : ControllerOutput}
      (turn : RealController.Turn (ControllerTask.timestamp s.around.clock) c input c' o)
      (took : x.input = some input) (events : x.output.events = o.events)
      (scans : x.output.scans = o.scans)
      (inFlight : s'.inFlight = s.inFlight - scansOver input + o.scans)
  | aside (same : c' = c) (took : x.input = none) (output : x.output = {})
      (inFlight : s'.inFlight = s.inFlight ∨
        (¬ (0 < s.inFlight ∧ c.isScanning) ∧ s'.inFlight = s.inFlight - 1))

def realOpening (root : Path) (masks : List String) (period : Option Nat) (around : Surroundings) :
    Scene :=
  opening (.real (.fresh root masks period)) around

variable {s : Scene} {c : RealController}

theorem input?_awaits (hc : s.task.controller = .real c) {m : Move} {input : ControllerInput}
    (h : s.input? m = some input) : c.Awaits input := by
  have hphase : s.task.controller.phase = c.phase := by
    rw [hc]
    rfl
  cases ready_of_input? h with
  | begin idle => exact hphase.symm.trans idle
  | heedStop asked running =>
    rw [hphase] at running
    cases hp : c.phase <;> simp [RunPhase.isRunning, RealController.Awaits, hp] at running ⊢
  | endScan inFlight scanning =>
    rw [hc] at scanning
    exact scanning
  | serveQueue wants | noticeEnd wants =>
    rw [hc] at wants
    exact wants
  | tick due =>
    simp only [ControllerTask.isTickDue, hc, Controller.wantsTick, Bool.and_eq_true] at due
    exact due.1

theorem move_scans (hc : s.task.controller = .real c) {m : Move} {input : ControllerInput}
    (h : s.input? m = some input) : (s.move m).2.output.scans =
      (c.step (ControllerTask.timestamp s.around.clock) input).2.scans := by
  simp only [move, h]
  exact (ControllerTask.take_output s.around input hc).2

theorem input?_tick {k : Ticker} (wanted : s.task.controller.wantsTick)
    (hk : s.task.ticker = some k) {d : Nat} (hd : k.due ≤ d) :
    (s.after [.advance d]).input? .tick = some (.tick (s.around.draw s.task.ticks)) := by
  have hdue : s.task.isTickDue (s.around.clock + d) := by
    have : k.due ≤ s.around.clock + d := by omega
    simpa [ControllerTask.isTickDue, wanted, hk, Ticker.isDue]
  exact if_pos hdue

theorem aside_keeps (s : Scene) (m : Move) :
    (s.aside m).1.task.controller = s.task.controller ∧
      (s.aside m).1.task.ticker = s.task.ticker := by
  cases m with
  | put q =>
    simp only [aside]
    split <;> exact ⟨rfl, rfl⟩
  | _ => exact ⟨rfl, rfl⟩

theorem aside_inFlight {m : Move} (h : s.input? m = none) :
    (s.aside m).1.inFlight = s.inFlight ∨
      (¬ (0 < s.inFlight ∧ s.task.controller.isScanning) ∧
        (s.aside m).1.inFlight = s.inFlight - 1) := by
  cases m with
  | endScan result =>
    refine .inr ⟨?_, rfl⟩
    rintro ⟨hf, hs⟩
    simp [input?, hf, hs] at h
  | put q =>
    simp only [aside]
    split <;> exact .inl rfl
  | _ => exact .inl rfl

theorem move_passage (hc : s.task.controller = .real c) (m : Move) :
    ∃ c', (s.move m).1.task.controller = .real c' ∧ Passage s c (s.move m).2 (s.move m).1 c' := by
  cases h : s.input? m with
  | some input =>
    have turn := RealController.turn_of_awaits (ControllerTask.timestamp s.around.clock)
      (input?_awaits hc h)
    obtain ⟨he, hs⟩ := ControllerTask.take_output s.around input hc
    simp only [move, h]
    exact ⟨_, ControllerTask.take_controller s.around input hc, .turn turn rfl he hs (by rw [hs])⟩
  | none =>
    have hf := aside_inFlight h
    rw [hc] at hf
    simp only [move, h]
    exact ⟨c, (aside_keeps s m).1.trans hc, .aside rfl rfl rfl hf⟩

theorem turn_of_input {m : Move} {input : ControllerInput} (hc : s.task.controller = .real c)
    (taken : (s.move m).2.input = some input) :
    ∃ c' o, (s.move m).1.task.controller = .real c' ∧
      RealController.Turn (ControllerTask.timestamp s.around.clock) c input c' o ∧
      (s.move m).2.output.events = o.events := by
  obtain ⟨c', hc', passage⟩ := move_passage hc m
  cases passage with
  | turn turn took events =>
    obtain rfl := Option.some.inj (took.symm.trans taken)
    exact ⟨c', _, hc', turn, events⟩
  | aside same took => exact nomatch took.symm.trans taken

theorem Passage.keeps {x : Moment} {s' : Scene} {c' : RealController} (p : Passage s c x s' c') :
    c'.root = c.root ∧ c'.masks = c.masks ∧ c'.period = c.period := by
  cases p with
  | turn turn => exact turn.keeps
  | aside same => exact same ▸ ⟨rfl, rfl, rfl⟩

theorem move_ticker (s : Scene) (m : Move)
    (hp : (s.move m).1.task.controller.phase = .serving) :
    (s.task.controller.phase = .serving ∧
      (s.move m).1.task.ticker.isSome = s.task.ticker.isSome) ∨
    (s.move m).1.task.ticker = (s.move m).1.task.controller.ticker? s.around.clock := by
  cases hi : s.input? m with
  | some input =>
    simp only [move, hi] at hp ⊢
    by_cases hserving : s.task.controller.phase = .serving
    · exact .inl ⟨hserving, ControllerTask.take_ticker_of_serving s.around input hserving⟩
    · exact .inr (ControllerTask.take_ticker_of_other s.around input hserving hp)
  | none =>
    obtain ⟨hcontroller, hticker⟩ := aside_keeps s m
    simp only [move, hi] at hp ⊢
    rw [hcontroller] at hp
    exact .inl ⟨hp, by rw [hticker]⟩

theorem run_real_keeps {P : History → Scene → RealController → Prop}
    (step : ∀ h s c m c', s.task.controller = .real c →
      (s.move m).1.task.controller = .real c' → Passage s c (s.move m).2 (s.move m).1 c' →
      P h s c → P (h ++ [(s.move m).2]) (s.move m).1 c')
    (hc : s.task.controller = .real c) (hs : P [] s c) (ms : List Move) :
    ∃ c', (s.after ms).task.controller = .real c' ∧ P (s.past ms) (s.after ms) c' := by
  refine run_keeps (P := fun h s => ∃ c, s.task.controller = .real c ∧ P h s c) (h := []) ?_
    ⟨c, hc, hs⟩ ms
  rintro h s m ⟨c, hc, hs⟩
  obtain ⟨c', hc', hp⟩ := move_passage hc m
  exact ⟨c', hc', step h s c m c' hc hc' hp hs⟩

/-- A scan is in flight while the run waits for it. After the end one may be left over. -/
structure OneScan (s : Scene) (c : RealController) : Prop where
  atMost : s.inFlight ≤ 1
  busy : c.isScanning → s.inFlight = 1
  free : c.isScanning = false → c.phase.isEnded = false → s.inFlight = 0
  elsewhere : c.phase ≠ .serving → c.rescanning = false

theorem OneScan.passage {x : Moment} {s' : Scene} {c' : RealController} (h : OneScan s c)
    (p : Passage s c x s' c') : OneScan s' c' := by
  cases p with
  | turn turn took events scans inFlight =>
    cases turn with
    | start idle =>
      have h0 := h.free (by simp [RealController.isScanning, idle]) (by rw [idle]; rfl)
      have h1 : s'.inFlight = 1 := by rw [inFlight, h0]; rfl
      exact ⟨by omega, fun _ => h1, by simp [RealController.isScanning],
        fun _ => h.elsewhere (by simp [idle])⟩
    | stop running =>
      -- A scan that was under way is left over.
      have h1 : s'.inFlight = s.inFlight := inFlight
      exact ⟨h1 ▸ h.atMost, by simp [RealController.isScanning], by simp [RunPhase.isEnded],
        by simp⟩
    | indexed indexing index =>
      have h1 := h.busy (by simp [RealController.isScanning, indexing])
      have h0 : s'.inFlight = 0 := by rw [inFlight, h1]; rfl
      have hr : c.rescanning = false := h.elsewhere (by simp [indexing])
      exact ⟨by omega, by simp [RealController.isScanning, RealController.countScan, hr],
        fun _ _ => h0, fun _ => hr⟩
    | failed indexing e =>
      have h1 := h.busy (by simp [RealController.isScanning, indexing])
      have h0 : s'.inFlight = 0 := by rw [inFlight, h1]; rfl
      exact ⟨by omega, by simp [RealController.isScanning], by simp [RunPhase.isEnded],
        fun _ => h.elsewhere (by simp [indexing])⟩
    | rescanned serving busy index =>
      have h1 := h.busy (by simp [RealController.isScanning, serving, busy])
      have h0 : s'.inFlight = 0 := by rw [inFlight, h1]; rfl
      exact ⟨by omega, by simp [RealController.adopt, RealController.countScan,
        RealController.isScanning, serving], fun _ _ => h0, fun _ => rfl⟩
    | rescanFailed serving busy e =>
      have h1 := h.busy (by simp [RealController.isScanning, serving, busy])
      have h0 : s'.inFlight = 0 := by rw [inFlight, h1]; rfl
      exact ⟨by omega, by simp [RealController.isScanning, serving], fun _ _ => h0, by simp⟩
    | message serving listens m =>
      have h1 : s'.inFlight = s.inFlight := inFlight
      exact ⟨h1 ▸ h.atMost, h1 ▸ h.busy, h1 ▸ h.free, h.elsewhere⟩
    | queueEnded serving listens =>
      have h1 : s'.inFlight = s.inFlight := inFlight
      exact ⟨h1 ▸ h.atMost, h1 ▸ h.busy, h1 ▸ h.free, h.elsewhere⟩
    | tick serving free draw =>
      have h0 := h.free (by simp [RealController.isScanning, serving, free]) (by rw [serving]; rfl)
      have h1 : s'.inFlight = 1 := by rw [inFlight, h0]; rfl
      exact ⟨by omega, fun _ => h1, by simp [RealController.isScanning, serving],
        fun hp => absurd serving hp⟩
  | aside same took output inFlight =>
    subst same
    obtain h1 | ⟨hnot, h1⟩ := inFlight
    · exact ⟨h1 ▸ h.atMost, h1 ▸ h.busy, h1 ▸ h.free, h.elsewhere⟩
    · have hle := h.atMost
      refine ⟨by omega, ?_, ?_, h.elsewhere⟩
      · intro hs
        have hb := h.busy hs
        exact absurd ⟨by omega, hs⟩ hnot
      · intro hs he
        have hf := h.free hs he
        omega

theorem input?_message {m : Move} {q : QueueMessage} (h : s.input? m = some (.message q)) :
    s.around.queue.waiting = q :: s.around.queue.get.2.waiting := by
  cases ready_of_input? h with
  | serveQueue wants front =>
    simp only [Queue.get] at front ⊢
    cases hw : s.around.queue.waiting with
    | nil => by_cases ha : s.around.queue.anySender <;> simp [hw, ha] at front
    | cons a r =>
      obtain rfl : a = q := by simpa [hw] using front
      rfl

/-- The queue loses only what the run takes from its front, and gains only what is put at its
end, until the run is over. -/
theorem move_queue (m : Move) (hopen : (s.move m).1.task.controller.phase.isEnded = false) :
    s.around.queue.waiting ++ (s.move m).2.accepted =
      (s.move m).2.message?.toList ++ (s.move m).1.around.queue.waiting := by
  cases h : s.input? m with
  | some input =>
    simp only [move, h] at hopen ⊢
    cases input with
    | message q =>
      rw [ControllerTask.take_queue_of_message s.around q hopen, input?_message h]
      simp [Moment.message?]
    | _ =>
      rw [ControllerTask.take_queue_of_other s.around _ (by simp) hopen]
      simp [Moment.message?]
  | none =>
    simp only [move, h] at hopen ⊢
    cases m with
    | put q =>
      by_cases hr : s.around.queue.receiver <;>
        simp [aside, Queue.put, hr, withQueue, Moment.message?]
    | _ => simp [aside, withQueue, Queue.clone, Queue.dropSender, Moment.message?,
        ControllerTask.stop]

/-- While the run serves it has a ticker, if it is to scan again at all. -/
def Clocked (s : Scene) (c : RealController) : Prop :=
  c.phase = .serving → s.task.ticker.isSome = c.period.isSome

theorem Clocked.move {c' : RealController} (h : Clocked s c) (hc : s.task.controller = .real c)
    (m : Move) (hc' : (s.move m).1.task.controller = .real c')
    (p : Passage s c (s.move m).2 (s.move m).1 c') : Clocked (s.move m).1 c' := by
  intro hp'
  rcases s.move_ticker m (by rw [hc']; exact hp') with ⟨hp, hold⟩ | hnew
  · rw [hc] at hp
    rw [hold, p.keeps.2.2]
    exact h hp
  · rw [hnew, hc']
    exact Option.isSome_map

/-- What is always so around a real controller that was made in some way. -/
structure Steady (root : Path) (masks : List String) (period : Option Nat) (s : Scene)
    (c : RealController) : Prop where
  root : c.root = root
  masks : c.masks = masks
  period : c.period = period
  oneScan : OneScan s c
  clocked : Clocked s c

theorem realOpening_steady (root : Path) (masks : List String) (period : Option Nat)
    (around : Surroundings) :
    Steady root masks period (realOpening root masks period around)
      (.fresh root masks period) where
  root := rfl
  masks := rfl
  period := rfl
  oneScan := ⟨Nat.zero_le 1, fun h => (nomatch h), fun _ _ => rfl, fun _ => rfl⟩
  clocked := fun h => (nomatch h)

theorem Steady.move {root : Path} {masks : List String} {period : Option Nat}
    {c' : RealController} (h : Steady root masks period s c) (hc : s.task.controller = .real c)
    (m : Move) (hc' : (s.move m).1.task.controller = .real c')
    (p : Passage s c (s.move m).2 (s.move m).1 c') :
    Steady root masks period (s.move m).1 c' := by
  exact ⟨p.keeps.1.trans h.root, p.keeps.2.1.trans h.masks, p.keeps.2.2.trans h.period,
    h.oneScan.passage p, h.clocked.move hc m hc' p⟩

end Scene

end SearchRelay
