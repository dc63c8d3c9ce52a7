import SearchRelay.Config.Reader
import SearchRelay.Proofs.Controller.Passage
import SearchRelay.Proofs.Lifetime.Start
import SearchRelay.Proofs.Mock.Turn

/-!
What a relay asks of the runtime below it: a channel for its events, timers, and numbers that chance
draws. The runtime does not grant everything, and whoever asks for too much breaks off. All that can
be too much is the capacity of the channel, and a rescan that is due past the end of the clock.
-/

namespace SearchRelay

inductive Request
  | channel (capacity : Nat)
  | interval (period : Nat)
  | deadline (due : Nat)
  | number (low high : Nat)
  deriving DecidableEq, Repr

inductive Panic
  | noCapacity
  | capacity
  | noPeriod
  | pastClock
  | noNumber
  deriving DecidableEq, Repr

structure Runtime where
  /-- The last moment to which a timer can be set. Without one, a timer for a moment that the clock
  never reaches is put off for good. -/
  horizon : Option Nat := none
  deriving DecidableEq, Repr

namespace Runtime

variable {α : Type} (r : Runtime)

def IsPast (due : Nat) : Prop := ∃ last ∈ r.horizon, last < due

instance (due : Nat) : Decidable (r.IsPast due) :=
  match h : r.horizon with
  | none => isFalse (by simp [IsPast, h])
  | some last => decidable_of_iff (last < due) (by simp [IsPast, h])

def panic? : Request → Option Panic
  | .channel n =>
    if n = 0 then some .noCapacity else if Broadcast.maxCapacity < n then some .capacity else none
  | .interval p => if p = 0 then some .noPeriod else none
  | .deadline due => if r.IsPast due then some .pastClock else none
  | .number low high => if high < low then some .noNumber else none

def refusal? (requests : List Request) : Option Panic := requests.findSome? r.panic?

/-- A capacity is raised to one before it is asked for, so only a large one is refused. -/
theorem panic?_channel (capacity : Nat) : r.panic? (.channel (max capacity 1)) =
    match (Broadcast.ofCapacity capacity : Except _ (Broadcast α)) with
    | .error _ => some .capacity
    | .ok _ => none := by
  have hpos : max capacity 1 ≠ 0 := by omega
  have hone : 1 ≤ Broadcast.maxCapacity := by decide
  have hlarge : Broadcast.maxCapacity < max capacity 1 ↔ Broadcast.maxCapacity < capacity := by
    omega
  simp only [panic?, if_neg hpos, Broadcast.ofCapacity]
  by_cases h : Broadcast.maxCapacity < capacity
  · rw [if_pos (hlarge.2 h), if_pos h]
  · rw [if_neg (mt hlarge.1 h), if_neg h]

end Runtime

namespace RealController

variable {c : RealController} (now : Timestamp)

theorem step_period (c : RealController) (now : Timestamp) (input : ControllerInput) :
    (c.step now input).1.period = c.period := by
  cases input with
  | scanned result =>
    cases hp : c.phase <;> cases result <;> simp only [step, hp]
    all_goals (try split) <;> rfl
  | start | stop | tick draw | message m | queueEnded =>
    simp only [step]
    split <;> rfl

theorem scanned_of_serving {input : ControllerInput} (hp : c.phase ≠ .serving)
    (hs : (c.step now input).1.phase = .serving) :
    c.phase = .indexing ∧ ∃ index, input = .scanned (.ok index) := by
  cases input with
  | scanned result =>
    cases hphase : c.phase with
    | indexing =>
      cases result with
      | ok index => exact ⟨rfl, index, rfl⟩
      | error e => simp [step, hphase] at hs
    | serving => exact absurd hphase hp
    | _ => simp [step, hphase] at hs
  | start | stop => cases hphase : c.phase <;> simp [step, hphase] at hs hp
  | message m | queueEnded | tick draw =>
    simp only [step] at hs
    split at hs <;> simp [hp] at hs

end RealController

namespace MockController

variable {c : MockController} (now : Timestamp)

theorem step_period (c : MockController) (now : Timestamp) (input : ControllerInput) :
    (c.step now input).1.period = c.period := by
  cases input with
  | scanned result => rfl
  | start | stop | tick draw | message m | queueEnded =>
    simp only [step]
    split <;> rfl

theorem start_of_serving {input : ControllerInput} (hp : c.phase ≠ .serving)
    (hs : (c.step now input).1.phase = .serving) : c.phase = .idle ∧ input = .start := by
  cases input with
  | start =>
    cases hphase : c.phase with
    | idle => exact ⟨rfl, rfl⟩
    | _ => simp [step, hphase] at hs hp
  | scanned result => exact absurd hs hp
  | stop | message m | queueEnded | tick draw =>
    simp only [step, advance] at hs
    split at hs <;> simp [hp] at hs

theorem step_ended (input : ControllerInput) {e : ControllerError}
    (hs : (c.step now input).1.phase = .ended (.error e)) : c.phase = .ended (.error e) := by
  cases input with
  | scanned result => exact hs
  | start =>
    cases hphase : c.phase <;> simp [step, hphase] at hs ⊢
    exact hs
  | stop | message m | queueEnded | tick draw =>
    simp only [step, advance] at hs
    split at hs <;> simp at hs <;> exact hs

theorem stepOf_bounds (c : MockController) (draw : Nat) :
    1 ≤ c.stepOf draw ∧ c.stepOf draw ≤ c.maxStep := by
  have hpos : 0 < c.maxStep := by
    rw [maxStep]
    omega
  have hmod := Nat.mod_lt draw hpos
  rw [stepOf]
  omega

end MockController

namespace Controller

def period? : Controller → Option Nat
  | real c => c.period
  | mock c => some c.period

/-- What a run asks for when it takes an input at some time. -/
def requests (now : Nat) : Controller → ControllerInput → List Request
  | real c, .scanned (.ok _) =>
    match c.phase, c.period with
    | .indexing, some p => [.interval p, .deadline (now + p)]
    | _, _ => []
  | mock c, .start =>
    match c.phase with
    | .idle => [.interval c.period]
    | _ => []
  | mock c, .tick _ => if c.wantsTick then [.number 1 c.maxStep] else []
  | _, _ => []

inductive Opens : Controller → ControllerInput → Nat → Prop
  | intro {c : RealController} (indexing : c.phase = .indexing) {p : Nat}
      (period : c.period = some p) (index : FileIndex) : Opens (.real c) (.scanned (.ok index)) p

variable {c : Controller}

theorem real_ofSettings {fs : FileSystem} {config : Config}
    (h : ofSettings .real fs config = .ok c) :
    ∃ root masks, c = .real (.fresh root masks (if config.search.rescanInterval = 0 then none
      else some (config.search.rescanInterval * 1000))) := by
  simp only [ofSettings, RealController.ofSettings] at h
  split at h
  · cases h
  · split at h
    · exact ⟨_, _, (Except.ok.inj h).symm⟩
    · cases h

theorem period?_ofSettings {kind : ControllerKind} {fs : FileSystem} {config : Config}
    (h : ofSettings kind fs config = .ok c) {p : Nat} (hp : c.period? = some p) :
    0 < p ∧ (kind = .real → 0 < config.search.rescanInterval ∧
      p = config.search.rescanInterval * 1000) := by
  cases kind with
  | mock =>
    obtain rfl := Except.ok.inj h
    obtain rfl : max config.mock.progressInterval 1 = p := Option.some.inj hp
    exact ⟨by omega, nofun⟩
  | real =>
    obtain ⟨root, masks, rfl⟩ := real_ofSettings h
    by_cases h0 : config.search.rescanInterval = 0
    · simp [period?, RealController.fresh, h0] at hp
    · obtain rfl : config.search.rescanInterval * 1000 = p := by
        simpa [period?, RealController.fresh, h0] using hp
      exact ⟨by omega, fun _ => ⟨by omega, rfl⟩⟩

theorem step_period? (c : Controller) (now : Timestamp) (input : ControllerInput) :
    (c.step now input).1.period? = c.period? := by
  cases c with
  | real c => exact c.step_period now input
  | mock c => exact congrArg some (c.step_period now input)

theorem asks_of_serving (c : Controller) {input : ControllerInput} {now : Nat} (time : Timestamp)
    (hp : c.phase ≠ .serving) (hs : (c.step time input).1.phase = .serving) {k : Ticker}
    (hk : (c.step time input).1.ticker? now = some k) :
    .interval k.period ∈ c.requests now input ∧
      (c.kind = .real → .deadline k.due ∈ c.requests now input) := by
  cases c with
  | real c =>
    obtain ⟨indexing, index, rfl⟩ := RealController.scanned_of_serving time hp hs
    have hk : (c.step time (.scanned (.ok index))).1.period.map (fun p => Ticker.mk p (now + p)) =
        some k := hk
    rw [RealController.step_period, Option.map_eq_some_iff] at hk
    obtain ⟨p, period, rfl⟩ := hk
    simp [requests, indexing, period]
  | mock c =>
    obtain ⟨idle, rfl⟩ := MockController.start_of_serving time hp hs
    have hk : some (Ticker.mk (c.step time .start).1.period now) = some k := hk
    rw [MockController.step_period] at hk
    obtain rfl := Option.some.inj hk
    exact ⟨by simp [requests, idle], nofun⟩

theorem refusal?_mock (r : Runtime) (now : Nat) (input : ControllerInput) {c : MockController}
    (hpos : 0 < c.period) : r.refusal? ((mock c).requests now input) = none := by
  have hperiod : c.period ≠ 0 := Nat.ne_of_gt hpos
  have hstep : ¬ c.maxStep < 1 := by
    rw [MockController.maxStep]
    omega
  cases input with
  | start =>
    simp only [requests]
    split <;> simp [Runtime.refusal?, Runtime.panic?, hperiod]
  | tick draw =>
    simp only [requests]
    split <;> simp [Runtime.refusal?, Runtime.panic?, hstep]
  | _ => rfl

theorem Opens.unique {input : ControllerInput} {p q : Nat} (hp : Opens c input p)
    (hq : Opens c input q) : q = p := by
  cases hp with
  | intro _ hp =>
    cases hq with
    | intro _ hq => exact Option.some.inj (hq.symm.trans hp)

theorem requests_of_opens {c : RealController} {input : ControllerInput} {p : Nat} (now : Nat)
    (h : Opens (.real c) input p) :
    (real c).requests now input = [.interval p, .deadline (now + p)] := by
  cases h with
  | intro indexing period index => simp only [requests, indexing, period]

theorem requests_of_not_opens {c : RealController} {input : ControllerInput} (now : Nat)
    (h : ¬ ∃ p, Opens (.real c) input p) : (real c).requests now input = [] := by
  cases input with
  | scanned result =>
    cases result with
    | error e => rfl
    | ok index =>
      simp only [requests]
      split
      · rename_i p indexing period
        exact absurd ⟨p, .intro indexing period index⟩ h
      · rfl
  | _ => rfl

/-- Where no period is zero, the one thing that may be refused is the time of a first rescan. -/
theorem refusal?_requests (r : Runtime) (now : Nat) {input : ControllerInput}
    (hpos : ∀ p, c.period? = some p → 0 < p) (e : Panic) :
    r.refusal? (c.requests now input) = some e ↔
      e = .pastClock ∧ ∃ p, Opens c input p ∧ r.IsPast (now + p) := by
  cases c with
  | mock c =>
    rw [refusal?_mock r now input (hpos c.period rfl)]
    constructor
    · rintro ⟨⟩
    · rintro ⟨-, p, ⟨⟩, -⟩
  | real c =>
    by_cases ho : ∃ p, Opens (.real c) input p
    · obtain ⟨p, hopens⟩ := ho
      have hne : p ≠ 0 := by
        obtain ⟨-, period, -⟩ := hopens
        exact Nat.ne_of_gt (hpos p period)
      have hunique : (∃ q, Opens (.real c) input q ∧ r.IsPast (now + q)) ↔ r.IsPast (now + p) :=
        ⟨fun ⟨q, hq, hlate⟩ => hopens.unique hq ▸ hlate, fun hlate => ⟨p, hopens, hlate⟩⟩
      rw [requests_of_opens now hopens, hunique]
      by_cases hlate : r.IsPast (now + p) <;>
        simp [Runtime.refusal?, Runtime.panic?, hne, hlate, eq_comm]
    · rw [requests_of_not_opens now ho]
      constructor
      · rintro ⟨⟩
      · rintro ⟨-, p, hopens, -⟩
        exact absurd ⟨p, hopens⟩ ho

end Controller

namespace Scene

variable {s : Scene}

def requests (s : Scene) (m : Move) : List Request :=
  match s.input? m with
  | some input => s.task.controller.requests s.around.clock input
  | none => []

/-- A run under a runtime, which goes on until something is refused. -/
def venture (r : Runtime) (s : Scene) : List Move → Except Panic (Scene × History)
  | [] => .ok (s, [])
  | m :: ms =>
    match r.refusal? (s.requests m) with
    | some e => .error e
    | none => (venture r (s.move m).1 ms).map fun (s', h) => (s', (s.move m).2 :: h)

/-- A move with which a first scan ends, so late that the next scan is due past the end of the
clock. -/
def Late (r : Runtime) (s : Scene) (m : Move) : Prop :=
  ∃ input p, s.input? m = some input ∧ s.task.controller.Opens input p ∧
    r.IsPast (s.around.clock + p)

theorem asks_for_ticker {m : Move} {k : Ticker} (before : s.task.ticker = none)
    (after : (s.move m).1.task.ticker = some k) : .interval k.period ∈ s.requests m ∧
      (s.task.controller.kind = .real → .deadline k.due ∈ s.requests m) := by
  cases hi : s.input? m with
  | none =>
    simp only [move, hi, (s.aside_keeps m).2, before] at after
    cases after
  | some input =>
    simp only [move, hi] at after
    by_cases hp : s.task.controller.phase = .serving
    · have hsame := ControllerTask.take_ticker_of_serving s.around input hp
      rw [after, before] at hsame
      cases hsame
    · by_cases hs :
          (s.task.controller.step (ControllerTask.timestamp s.around.clock) input).1.phase = .serving
      · rw [ControllerTask.take_ticker_of_other s.around input hp hs] at after
        simp only [requests, hi]
        exact s.task.controller.asks_of_serving _ hp hs after
      · rw [ControllerTask.take_ticker_of_idle s.around input hp hs, before] at after
        cases after

theorem move_period? (s : Scene) (m : Move) :
    (s.move m).1.task.controller.period? = s.task.controller.period? := by
  cases hi : s.input? m with
  | some input =>
    simp only [move, hi]
    exact s.task.controller.step_period? _ input
  | none =>
    simp only [move, hi, (s.aside_keeps m).1]

theorem refusal?_eq_some_iff (r : Runtime) (hpos : ∀ p, s.task.controller.period? = some p → 0 < p)
    (m : Move) (e : Panic) :
    r.refusal? (s.requests m) = some e ↔ e = .pastClock ∧ Late r s m := by
  rw [requests, Late]
  cases hi : s.input? m with
  | none => simp [Runtime.refusal?]
  | some input => simpa using Controller.refusal?_requests r s.around.clock hpos e

theorem venture_eq_run (r : Runtime) {s : Scene} {ms : List Move} {x : Scene × History}
    (h : venture r s ms = .ok x) : x = s.run ms := by
  induction ms generalizing s x with
  | nil => exact (Except.ok.inj h).symm
  | cons m ms ih =>
    rw [venture] at h
    split at h
    · cases h
    · cases hv : venture r (s.move m).1 ms with
      | error e =>
        rw [hv] at h
        cases h
      | ok y =>
        rw [hv] at h
        obtain rfl := Except.ok.inj h
        rw [ih hv]
        rfl

theorem venture_eq_error_iff (r : Runtime)
    (hpos : ∀ p, s.task.controller.period? = some p → 0 < p) (ms : List Move) (e : Panic) :
    venture r s ms = .error e ↔ e = .pastClock ∧
      ∃ before m more, ms = before ++ m :: more ∧ Late r (s.after before) m := by
  induction ms generalizing s with
  | nil => simp [venture]
  | cons m ms ih =>
    have hlate := refusal?_eq_some_iff r hpos m
    rw [venture]
    -- A run breaks off at the first move of which a request is refused.
    cases hr : r.refusal? (s.requests m) with
    | some e' =>
      obtain ⟨rfl, hlate⟩ := (hlate e').1 hr
      constructor
      · rintro ⟨⟩
        exact ⟨rfl, [], m, ms, rfl, hlate⟩
      · rintro ⟨rfl, -⟩
        rfl
    | none =>
      have hnot : ¬ Late r s m := by
        intro h
        rw [(hlate .pastClock).2 ⟨rfl, h⟩] at hr
        cases hr
      have hrest : (venture r (s.move m).1 ms).map
          (fun (s', h) => (s', (s.move m).2 :: h)) = .error e ↔
          venture r (s.move m).1 ms = .error e := by
        cases venture r (s.move m).1 ms <;> simp [Except.map]
      refine hrest.trans ((ih ?_).trans (and_congr_right fun _ => ?_))
      · rw [move_period?]
        exact hpos
      constructor
      · rintro ⟨before, m', more, rfl, h⟩
        exact ⟨m :: before, m', more, rfl, h⟩
      · rintro ⟨before, m', more, heq, h⟩
        cases before with
        | nil =>
          obtain ⟨rfl, -⟩ := List.cons.inj heq
          exact absurd h hnot
        | cons m'' before =>
          obtain ⟨rfl, rfl⟩ := List.cons.inj heq
          exact ⟨before, m', more, rfl, h⟩

end Scene

end SearchRelay
