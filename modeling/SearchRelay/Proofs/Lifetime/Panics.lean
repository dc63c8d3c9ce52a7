import SearchRelay.Proofs.Controller.Course
import SearchRelay.Proofs.Lifetime.Runtime

/-!
What a configuration can break off. A start breaks off where the capacity for events is too large,
and a run where its first rescan is due past the end of the clock. Everything else that fails, fails
with an error.
-/

namespace SearchRelay

theorem Config.override_numbers (c : Config) (lookup : String → Option String) :
    (c.override lookup).1.server.broadcastCapacity = c.server.broadcastCapacity ∧
      (c.override lookup).1.search.rescanInterval = c.search.rescanInterval := by
  simp only [Config.override]
  cases lookup "CEDAR_PORT" with
  | none => cases lookup "CEDAR_SEARCH_ROOT" <;> exact ⟨rfl, rfl⟩
  | some value =>
    cases hread : Text.readBounded maxPort value <;>
      cases lookup "CEDAR_SEARCH_ROOT" <;> simp only [hread, and_self]

namespace Scene

theorem after_kind (s : Scene) (ms : List Move) :
    (s.after ms).task.controller.kind = s.task.controller.kind :=
  run_keeps (P := fun _ s' => s'.task.controller.kind = s.task.controller.kind) (h := [])
    (fun _ s' m h => (s'.move_lasting m).kind.trans h) rfl ms

theorem after_period? (s : Scene) (ms : List Move) :
    (s.after ms).task.controller.period? = s.task.controller.period? :=
  run_keeps (P := fun _ s' => s'.task.controller.period? = s.task.controller.period?) (h := [])
    (fun _ s' m h => (s'.move_period? m).trans h) rfl ms

theorem mock_unfailing {c : MockController} {s : Scene} (hc : s.task.controller = .mock c)
    (hp : ∀ e, c.phase ≠ .ended (.error e)) (ms : List Move) (e : ControllerError) :
    (s.after ms).task.controller.phase ≠ .ended (.error e) := by
  have keeps := run_keeps (P := fun _ s' => ∃ c, s'.task.controller = .mock c ∧
    ∀ e, c.phase ≠ .ended (.error e)) (h := []) ?_ ⟨c, hc, hp⟩ ms
  · obtain ⟨c', hc', hp'⟩ := keeps
    rw [hc']
    exact hp' e
  · rintro past s' m ⟨c', hc', hp'⟩
    cases hi : s'.input? m with
    | none =>
      simp only [move, hi]
      exact ⟨c', (s'.aside_keeps m).1.trans hc', hp'⟩
    | some input =>
      simp only [move, hi, ControllerTask.take, hc', Controller.step]
      exact ⟨_, rfl, fun e he => hp' e (MockController.step_ended _ input he)⟩

/-- How the run of a controller can fare, whatever happens around it. -/
structure Fares (interval : Nat) (kind : ControllerKind) (start : Scene) : Prop where
  grants (r : Runtime) (ms : List Move) (x : Scene × History) :
    start.venture r ms = .ok x → x = start.run ms
  /-- A run breaks off only where its first rescan is due past the end of the clock. -/
  breaks (r : Runtime) (ms : List Move) (e : Panic) : start.venture r ms = .error e ↔
    e = .pastClock ∧ kind = .real ∧ 0 < interval ∧
      ∃ before index more, ms = before ++ .endScan (.ok index) :: more ∧
        (start.after before).task.controller.phase = .indexing ∧
        0 < (start.after before).inFlight ∧
        r.IsPast ((start.after before).around.clock + interval * 1000)
  /-- A run has no ticker but one that it asked for. -/
  ticks (ms : List Move) (m : Move) (k : Ticker) : (start.after ms).task.ticker = none →
    ((start.after ms).move m).1.task.ticker = some k →
      .interval k.period ∈ (start.after ms).requests m ∧
        (kind = .real → .deadline k.due ∈ (start.after ms).requests m)
  draws (ms : List Move) (m : Move) (c : MockController) (draw : Nat) :
    (start.after ms).task.controller = .mock c →
      (start.after ms).input? m = some (.tick draw) →
        .number 1 c.maxStep ∈ (start.after ms).requests m ∧ 1 ≤ c.stepOf draw ∧
          c.stepOf draw ≤ c.maxStep
  fails (ms : List Move) (e : ControllerError) :
    (start.after ms).task.result? = some (.error e) →
      kind = .real ∧ (start.past ms).results = [.error e]

section

variable {kind : ControllerKind} {fs : FileSystem} {config : Config} {c : Controller}

theorem late_iff (h : Controller.ofSettings kind fs config = .ok c) (r : Runtime) {s : Scene}
    (hkind : s.task.controller.kind = kind) (hperiod : s.task.controller.period? = c.period?)
    (m : Move) : Late r s m ↔ kind = .real ∧ 0 < config.search.rescanInterval ∧
      ∃ index, m = .endScan (.ok index) ∧ s.task.controller.phase = .indexing ∧ 0 < s.inFlight ∧
        r.IsPast (s.around.clock + config.search.rescanInterval * 1000) := by
  constructor
  · rintro ⟨input, p, hi, hopens, hlate⟩
    generalize hcontroller : s.task.controller = controller at hopens hkind hperiod
    cases hopens with
    | @intro c' indexing p period index =>
      have hreal : kind = .real := hkind.symm
      obtain ⟨hpos, hp⟩ := (Controller.period?_ofSettings h (hperiod.symm.trans period)).2 hreal
      cases ready_of_input? hi with
      | endScan inFlight =>
        exact ⟨hreal, hpos, index, rfl, indexing, inFlight, hp ▸ hlate⟩
  · rintro ⟨hreal, hpos, index, rfl, hphase, inFlight, hlate⟩
    generalize hcontroller : s.task.controller = controller at hphase hkind hperiod
    cases controller with
    | mock c' => exact nomatch hkind.trans hreal
    | real c' =>
      have hsome : c'.period = some (config.search.rescanInterval * 1000) := by
        subst hreal
        obtain ⟨root, masks, rfl⟩ := Controller.real_ofSettings h
        simpa [Controller.period?, RealController.fresh, Nat.ne_of_gt hpos] using hperiod
      have hscanning : s.task.controller.isScanning := by
        rw [hcontroller]
        exact RealController.isScanning_iff.2 (.inl hphase)
      exact ⟨_, _, (Ready.endScan inFlight hscanning (.ok index)).input?_eq,
        hcontroller ▸ .intro hphase hsome index, hlate⟩

theorem fares (h : Controller.ofSettings kind fs config = .ok c) (around : Surroundings) :
    Fares config.search.rescanInterval kind (opening c around) := by
  have hkind : (opening c around).task.controller.kind = kind := (Controller.ofSettings_ok h).1
  have hperiod : (opening c around).task.controller.period? = c.period? := rfl
  have hpos : ∀ p, (opening c around).task.controller.period? = some p → 0 < p :=
    fun p hp => (Controller.period?_ofSettings h hp).1
  constructor
  case grants => exact fun r ms x hx => venture_eq_run r hx
  case breaks =>
    intro r ms e
    have hlate (before : List Move) := late_iff h r
      ((after_kind _ before).trans hkind) ((after_period? _ before).trans hperiod)
    rw [venture_eq_error_iff r hpos]
    refine and_congr_right fun _ => ⟨?_, ?_⟩
    · rintro ⟨before, m, more, rfl, hl⟩
      obtain ⟨hreal, hint, index, rfl, rest⟩ := (hlate before m).1 hl
      exact ⟨hreal, hint, before, index, more, rfl, rest⟩
    · rintro ⟨hreal, hint, before, index, more, rfl, rest⟩
      exact ⟨before, _, more, rfl, (hlate before _).2 ⟨hreal, hint, index, rfl, rest⟩⟩
  case ticks =>
    intro ms m k hnone hsome
    obtain ⟨hinterval, hdeadline⟩ := asks_for_ticker hnone hsome
    exact ⟨hinterval, fun hreal => hdeadline ((after_kind _ ms).trans (hkind.trans hreal))⟩
  case draws =>
    intro ms m c' draw hc' hi
    have hw : c'.wantsTick := by
      cases ready_of_input? hi with
      | tick due =>
        simp only [ControllerTask.isTickDue, hc', Bool.and_eq_true] at due
        exact due.1
    refine ⟨?_, c'.stepOf_bounds draw⟩
    simp [requests, hi, hc', Controller.requests, hw]
  case fails =>
    intro ms e he
    have hended : ((opening c around).after ms).task.controller.phase = .ended (.error e) := by
      simp only [ControllerTask.result?] at he
      split at he
      · rename_i r hp
        rw [hp, Option.some.inj he]
      · cases he
    cases c with
    | mock c =>
      have hidle : c.phase = .idle := (Controller.ofSettings_ok h).2.1
      exact absurd hended (mock_unfailing rfl (by simp [hidle]) ms e)
    | real c =>
      obtain rfl : ControllerKind.real = kind := hkind
      obtain ⟨root, masks, hmade⟩ := Controller.real_ofSettings h
      obtain rfl := Controller.real.inj hmade
      obtain ⟨c, hc, -, -, course, -⟩ := run_invariant root masks _ around ms
      have hphase : c.phase = .ended (.error e) := (congrArg Controller.phase hc).symm.trans hended
      rw [hphase] at course
      exact ⟨rfl, course.results_of_failed⟩

end

end Scene

namespace Bootstrap

/-- All that can break off of what a bootstrap starts, with a capacity for events and an interval
for rescans. -/
structure Hazards (capacity interval : Nat) (b : Bootstrap) (host : Host) : Prop where
  channel (r : Runtime) : r.panic? (.channel (max capacity 1)) =
    if Broadcast.maxCapacity < capacity then some .capacity else none
  start : (∃ e, (b.start host).1 = .error (.capacity e)) ↔ Broadcast.maxCapacity < capacity
  controller (e : ControllerError) : (b.start host).1 = .error (.controller e) →
    ∃ kind, b.mode.kind? = some kind ∧ Controller.ofSettings kind host.files b.config = .error e
  run (services : Services) : (b.start host).1 = .ok services →
    services.kind? = b.mode.kind? ∧ ∀ task ∈ services.controller,
      task = { controller := task.controller } ∧
        ∀ around, Scene.Fares interval task.controller.kind (.opening task.controller around)

theorem hazards (b : Bootstrap) (host : Host) :
    Hazards b.config.server.broadcastCapacity b.config.search.rescanInterval b host := by
  have turn := b.start_turn host
  generalize (b.start host).2.1 = after, (b.start host).2.2 = logs at turn
  have room {e : Broadcast.CapacityError} (h : (Broadcast.ofCapacity
      b.config.server.broadcastCapacity : Except _ (Broadcast Emit)) = .error e) :
      Broadcast.maxCapacity < b.config.server.broadcastCapacity := by
    rw [Broadcast.ofCapacity] at h
    split at h
    · assumption
    · cases h
  constructor
  case channel =>
    intro r
    rw [r.panic?_channel (α := Emit), Broadcast.ofCapacity]
    by_cases h : Broadcast.maxCapacity < b.config.server.broadcastCapacity
    · simp only [if_pos h]
    · simp only [if_neg h]
  case start =>
    constructor
    · rintro ⟨e, he⟩
      rw [he] at turn
      cases turn with
      | unfit e tooLarge => exact room tooLarge
    · intro h
      have unfit : (Broadcast.ofCapacity b.config.server.broadcastCapacity :
          Except _ (Broadcast Emit)) = .error .tooLarge := if_pos h
      exact ⟨.tooLarge, by simp only [Bootstrap.start, advance_eq, unfit]⟩
  case controller =>
    intro e he
    rw [he] at turn
    cases turn with
    | failed mode made => exact ⟨_, mode, made⟩
  case run =>
    intro services hs
    rw [hs] at turn
    refine ⟨turn.fresh.2.2, fun task htask => ?_⟩
    cases turn with
    | starting mode made relay queue warnings =>
      obtain rfl := Option.some.inj htask
      rw [(Controller.ofSettings_ok made).1]
      exact ⟨rfl, Scene.fares made⟩
    | skipped => cases htask

/-- In whatever mode and environment, a configuration breaks nothing off but by a capacity for
events or an interval for rescans that is too large. -/
theorem start_hazards (config : Config) (lookup : String → Option String) (mode : ControllerMode)
    (host : Host) : Hazards config.server.broadcastCapacity config.search.rescanInterval
      { config := (config.override lookup).1, mode } host := by
  obtain ⟨hcapacity, hinterval⟩ := config.override_numbers lookup
  rw [← hcapacity, ← hinterval]
  exact hazards { config := (config.override lookup).1, mode } host

/-- A capacity that is one too large can be written in a configuration. -/
theorem start_breaks_off : ¬ ∀ (yaml : String) (config : Config), Config.read yaml = .ok config →
    ∀ mode host e, (start { config, mode } host).1 ≠ .error (.capacity e) := by
  intro h
  have read : (Config.read "server:\n  broadcast_capacity: 9223372036854775808\n").toOption =
      some { server := { broadcastCapacity := 9223372036854775808 } } := by decide +kernel
  cases hread : Config.read "server:\n  broadcast_capacity: 9223372036854775808\n" with
  | error e => simp [hread, Except.toOption] at read
  | ok config =>
    rw [hread] at read
    obtain rfl := Option.some.inj read
    exact h _ _ hread .disabled { files := .empty } .tooLarge rfl

end Bootstrap

end SearchRelay
