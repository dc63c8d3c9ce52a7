import SearchRelay.Proofs.Controller.Passage
import SearchRelay.Proofs.Mock.Turn

namespace SearchRelay.Scene

def mockOpening (root : Path) (interval total : Nat) (around : Surroundings) : Scene :=
  opening (.mock (.ofSettings root interval total)) around

inductive Stride (s : Scene) (c : MockController) (x : Moment) (c' : MockController) : Prop
  | turn {input : ControllerInput} {o : ControllerOutput}
      (turn : MockController.Turn (ControllerTask.timestamp s.around.clock) c input c' o)
      (took : x.input = some input) (events : x.output.events = o.events)
      (asked : input = .stop → s.task.stopRequested)
  | aside (same : c' = c) (took : x.input = none) (output : x.output = {})

variable {s : Scene} {c : MockController}

theorem input?_awaits_mock (hc : s.task.controller = .mock c) (hi : c.phase ≠ .indexing)
    {m : Move} {input : ControllerInput} (h : s.input? m = some input) : c.Awaits input := by
  have hphase : s.task.controller.phase = c.phase := by
    rw [hc]
    rfl
  cases ready_of_input? h with
  | begin idle => exact hphase.symm.trans idle
  | heedStop asked running =>
    rw [hphase] at running
    cases hp : c.phase with
    | serving => exact hp
    | indexing => exact absurd hp hi
    | _ => simp [RunPhase.isRunning, hp] at running
  | endScan inFlight scanning =>
    rw [hc] at scanning
    cases scanning
  | serveQueue wants | noticeEnd wants =>
    rw [hc] at wants
    exact wants
  | tick due =>
    simp only [ControllerTask.isTickDue, hc, Controller.wantsTick, Bool.and_eq_true] at due
    exact due.1

theorem asked_of_input? {m : Move} (h : s.input? m = some .stop) : s.task.stopRequested := by
  cases ready_of_input? h with
  | heedStop asked => exact asked

theorem move_stride (hc : s.task.controller = .mock c) (hi : c.phase ≠ .indexing)
    (room : c.total ≤ MockController.maxFiles) (m : Move) :
    ∃ c', (s.move m).1.task.controller = .mock c' ∧ Stride s c (s.move m).2 c' := by
  cases h : s.input? m with
  | some input =>
    have turn := MockController.turn_of_awaits (ControllerTask.timestamp s.around.clock) room
      (input?_awaits_mock hc hi h)
    simp only [move, h]
    refine ⟨_, ?_, .turn turn rfl ?_ fun he => asked_of_input? (he ▸ h)⟩
    · simp only [ControllerTask.take, hc, Controller.step]
    · simp only [ControllerTask.take, hc, Controller.step]
  | none =>
    simp only [move, h]
    exact ⟨c, (aside_keeps s m).1.trans hc, .aside rfl rfl rfl⟩

theorem ticker_of_move {c' : MockController} (hc : s.task.controller = .mock c)
    (hk : c.phase = .serving → s.task.ticker.isSome) (m : Move)
    (hc' : (s.move m).1.task.controller = .mock c') (hp' : c'.phase = .serving) :
    (s.move m).1.task.ticker.isSome := by
  rcases s.move_ticker m (by rw [hc']; exact hp') with ⟨hp, hold⟩ | hnew
  · rw [hc] at hp
    rw [hold]
    exact hk hp
  · rw [hnew, hc']
    rfl

/-- What is always so of a mock controller that was made in some way. Its run serves from the
start. -/
structure Feigning (root : Path) (total : Nat) (c : MockController) : Prop where
  root : c.root = root
  total : c.total = total
  phase : c.phase ≠ .indexing

theorem feigning_ofSettings (root : Path) (interval total : Nat) :
    Feigning root total (.ofSettings root interval total) := ⟨rfl, rfl, fun hp => nomatch hp⟩

theorem Feigning.stride {root : Path} {total : Nat} {x : Moment} {c' : MockController}
    (f : Feigning root total c) (p : Stride s c x c') : Feigning root total c' := by
  cases p with
  | turn turn =>
    obtain ⟨hroot, htotal⟩ := turn.keeps
    exact ⟨hroot.trans f.root, htotal.trans f.total, turn.not_indexing⟩
  | aside same => exact same ▸ f

theorem run_mock_keeps {root : Path} {total : Nat} {P : History → Scene → MockController → Prop}
    (room : total ≤ MockController.maxFiles)
    (step : ∀ h s m c c', s.task.controller = .mock c → Feigning root total c →
      (s.move m).1.task.controller = .mock c' → Stride s c (s.move m).2 c' →
      P h s c → P (h ++ [(s.move m).2]) (s.move m).1 c')
    (hc : s.task.controller = .mock c) (hf : Feigning root total c) (hs : P [] s c)
    (ms : List Move) :
    ∃ c', (s.after ms).task.controller = .mock c' ∧ Feigning root total c' ∧
      P (s.past ms) (s.after ms) c' := by
  refine run_keeps (P := fun h s => ∃ c, s.task.controller = .mock c ∧ Feigning root total c ∧
    P h s c) (h := []) ?_ ⟨c, hc, hf, hs⟩ ms
  rintro h s m ⟨c, hc, hf, hs⟩
  obtain ⟨c', hc', stride⟩ := move_stride hc hf.phase (hf.total ▸ room) m
  exact ⟨c', hc', hf.stride stride, step h s m c c' hc hf hc' stride hs⟩

end SearchRelay.Scene
