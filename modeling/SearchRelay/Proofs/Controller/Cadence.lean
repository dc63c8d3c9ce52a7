import SearchRelay.Proofs.Controller.Accounting

/-!
When a real controller sets off its rescans. Behind every one stands the first tick that came due
since the last was set off; the ticks that came due after that one are skipped. A tick that comes
due during a rescan is therefore not skipped if it is the first: it waits for the end.
-/

namespace SearchRelay

namespace Ticker

def IsTick (first period due : Nat) : Prop := ∃ k, due = first + (k + 1) * period

structure IsNext (first period now due : Nat) : Prop where
  tick : IsTick first period due
  later : now < due
  soon : due ≤ now + period

variable {first period now due : Nat}

theorem IsNext.le (h : IsNext first period now due) {other : Nat}
    (ho : IsTick first period other) (hlater : now < other) : due ≤ other := by
  obtain ⟨k, rfl⟩ := h.tick
  obtain ⟨j, rfl⟩ := ho
  have hsoon := h.soon
  by_contra hlt
  -- A tick before the next one is a whole period before it, hence not after the time.
  have hjk : j + 1 < k + 1 := Nat.lt_of_mul_lt_mul_right (a := period) (by omega)
  have hmul : (j + 2) * period ≤ (k + 1) * period := Nat.mul_le_mul_right _ hjk
  have hsplit : (j + 2) * period = (j + 1) * period + period := Nat.succ_mul _ _
  omega

theorem first_isNext (first : Nat) (hp : 0 < period) :
    IsNext first period first (first + period) :=
  ⟨⟨0, by omega⟩, by omega, Nat.le_refl _⟩

theorem take_eq (k : Ticker) (now : Nat) : k.take now = ⟨k.period, (k.take now).due⟩ := by
  unfold take
  split <;> rfl

/-- Whether it is taken late or not, after a tick the clock waits for the next one. -/
theorem take_isNext {k : Ticker} (h : IsTick first k.period k.due) (hp : tolerance < k.period)
    (hnow : k.due ≤ now) : IsNext first k.period now (k.take now).due := by
  obtain ⟨i, hi⟩ := h
  by_cases hlate : now ≤ k.due + tolerance
  · have htake : (k.take now).due = k.due + k.period := by simp [take, hlate]
    refine ⟨⟨i + 1, ?_⟩, by omega, by omega⟩
    rw [htake, hi, Nat.succ_mul (i + 1), Nat.add_assoc]
  · have htake : (k.take now).due = now + k.period - (now - k.due) % k.period := by
      simp [take, hlate]
    have hrest : (now - k.due) % k.period < k.period := Nat.mod_lt _ (by omega)
    have hdiv := Nat.mod_add_div (now - k.due) k.period
    have hdue : (k.take now).due = k.due + ((now - k.due) / k.period + 1) * k.period := by
      rw [htake, Nat.succ_mul, Nat.mul_comm ((now - k.due) / k.period)]
      omega
    refine ⟨⟨i + ((now - k.due) / k.period + 1), ?_⟩, by omega, by omega⟩
    rw [hdue, hi, Nat.add_assoc, ← Nat.add_mul]
    congr 2
    omega

end Ticker

def Moment.isTick (m : Moment) : Bool :=
  match m.input with
  | some (.tick _) => true
  | _ => false

abbrev Timeline := List (Nat × Moment)

namespace Timeline

def indexed? (t : Timeline) : Option Nat :=
  (t.find? fun e => e.2.success?.isSome).map Prod.fst

def rescans (t : Timeline) : List Nat := (t.filter fun e => e.2.isTick).map Prod.fst

/-- When a scan was last set off, or the first was over. -/
def since (first : Nat) (t : Timeline) : Nat := t.rescans.getLastD first

/-- A tick after the last scan was set off has come due. -/
def Overdue (period : Nat) (t : Timeline) (now : Nat) : Prop :=
  ∃ first due, t.indexed? = some first ∧ Ticker.IsTick first period due ∧
    t.since first < due ∧ due ≤ now

variable (t : Timeline) {first : Nat} {e : Nat × Moment}

theorem rescans_append (u : Timeline) : rescans (t ++ u) = t.rescans ++ u.rescans := by
  simp [rescans]

theorem indexed?_concat_of_some (h : t.indexed? = some first) :
    indexed? (t ++ [e]) = some first := by
  simp only [indexed?, Option.map_eq_some_iff] at h
  obtain ⟨x, hx, rfl⟩ := h
  simp [indexed?, hx]

theorem indexed?_concat_of_none (h : t.indexed? = none) :
    indexed? (t ++ [e]) = if e.2.success?.isSome then some e.1 else none := by
  simp only [indexed?, Option.map_eq_none_iff] at h
  rw [indexed?, List.find?_append, h, Option.none_or, List.find?_singleton]
  split <;> rfl

theorem rescans_concat_of_tick (h : e.2.isTick) : rescans (t ++ [e]) = t.rescans ++ [e.1] := by
  simp [rescans, h]

theorem rescans_concat_of_other (h : e.2.isTick = false) : rescans (t ++ [e]) = t.rescans := by
  simp [rescans, h]

theorem le_since {u : Timeline} (he : e.2.isTick) (hu : ∀ x ∈ u, e.1 ≤ x.1) :
    e.1 ≤ since first (t ++ e :: u) := by
  have hlast : since first (t ++ e :: u) = u.rescans.getLastD e.1 := by
    rw [since, List.append_cons, rescans_append, t.rescans_concat_of_tick he]
    cases u.rescans <;> simp [List.getLastD_eq_getLast?, List.getLast?_cons]
  rw [hlast]
  rcases List.mem_cons.1 (List.getLastD_mem_cons (l := u.rescans) (a := e.1)) with h | h
  · exact h.ge
  · obtain ⟨x, hx, hxe⟩ := List.mem_map.1 h
    exact hxe ▸ hu x (List.mem_filter.1 hx).1

end Timeline

namespace Scene

def timeline (s : Scene) : List Move → Timeline
  | [] => []
  | m :: r => (s.around.clock, (s.move m).2) :: (s.move m).1.timeline r

theorem timeline_append (s : Scene) (ms more : List Move) :
    s.timeline (ms ++ more) = s.timeline ms ++ (s.after ms).timeline more := by
  induction ms generalizing s with
  | nil => rfl
  | cons m ms ih =>
    rw [List.cons_append, timeline, timeline, ih, List.cons_append]
    rfl

theorem timeline_concat (s : Scene) (ms : List Move) (m : Move) :
    s.timeline (ms ++ [m]) =
      s.timeline ms ++ [((s.after ms).around.clock, s.moment ms m)] :=
  timeline_append s ms [m]

theorem clock_le_move (s : Scene) (m : Move) : s.around.clock ≤ (s.move m).1.around.clock := by
  cases hi : s.input? m with
  | some input =>
    simp only [move, hi]
    exact Nat.le_refl _
  | none =>
    simp only [move, hi]
    cases m with
    | advance ms => exact Nat.le_add_right _ _
    | put q =>
      simp only [aside]
      split <;> exact Nat.le_refl _
    | _ => exact Nat.le_refl _

theorem clock_le_timeline (s : Scene) (ms : List Move) :
    ∀ e ∈ s.timeline ms, s.around.clock ≤ e.1 := by
  induction ms generalizing s with
  | nil => exact List.forall_mem_nil _
  | cons m ms ih =>
    refine List.forall_mem_cons.2 ⟨Nat.le_refl _, fun e he => ?_⟩
    exact (s.clock_le_move m).trans (ih _ e he)

variable {s : Scene} {c c' : RealController} {m : Move}

theorem move_ticker_of_tick (hp : s.task.controller.phase = .serving) {n : Nat}
    (hi : s.input? m = some (.tick n)) :
    (s.move m).1.task.ticker = s.task.ticker.map fun k => k.take s.around.clock := by
  simp only [move, hi, ControllerTask.take, hp]

theorem move_ticker_of_other (hp : s.task.controller.phase = .serving)
    (hi : ∀ n, s.input? m ≠ some (.tick n)) : (s.move m).1.task.ticker = s.task.ticker := by
  cases h : s.input? m with
  | some input =>
    simp only [move, h, ControllerTask.take, hp]
    cases input with
    | tick n => exact absurd h (hi n)
    | _ => rfl
  | none =>
    simp only [move, h]
    exact (s.aside_keeps m).2

theorem due_of_tick {n : Nat} (hi : s.input? m = some (.tick n)) {k : Ticker}
    (hk : s.task.ticker = some k) : k.due ≤ s.around.clock := by
  cases ready_of_input? hi with
  | tick due =>
    simp only [ControllerTask.isTickDue, hk, Bool.and_eq_true] at due
    simpa [Ticker.isDue] using due.2

/-- The clock of a controller that serves waits for the first tick since the last scan was set
off. -/
structure Paced (period : Nat) (t : Timeline) (s : Scene) (c : RealController) : Prop where
  early : c.phase = .idle ∨ c.phase = .indexing → t.indexed? = none ∧ t.rescans = []
  serving : c.phase = .serving → ∃ first due, t.indexed? = some first ∧
    s.task.ticker = some ⟨period, due⟩ ∧ Ticker.IsNext first period (t.since first) due

section

variable {period : Nat} {t : Timeline} {x : Moment} {s' : Scene} {now : Nat}

theorem Paced.quiet (h : Paced period t s c) (hp : c.phase = .serving) (hp' : c'.phase = .serving)
    (hx : x.isTick = false) (hticker : s'.task.ticker = s.task.ticker) :
    Paced period (t ++ [(now, x)]) s' c' where
  early hearly := by simp [hp'] at hearly
  serving _ := by
    obtain ⟨first, due, hfirst, hdue, hnext⟩ := h.serving hp
    refine ⟨first, due, t.indexed?_concat_of_some hfirst, hticker.trans hdue, ?_⟩
    rwa [Timeline.since, t.rescans_concat_of_other hx]

theorem Paced.waits (h : Paced period t s c) (hp : c.phase = .idle ∨ c.phase = .indexing)
    (hp' : c'.phase ≠ .serving) (hx : x.isTick = false) (hs : x.success? = none) :
    Paced period (t ++ [(now, x)]) s' c' where
  early _ := by
    obtain ⟨hnone, hnil⟩ := h.early hp
    rw [t.indexed?_concat_of_none hnone, t.rescans_concat_of_other hx, hnil]
    simp [hs]
  serving hserving := absurd hserving hp'

theorem Paced.opens (h : Paced period t s c) (hp : c.phase = .indexing) (hp' : c'.phase = .serving)
    (hperiod : 0 < period) (hx : x.isTick = false) (hs : x.success?.isSome)
    (hticker : s'.task.ticker = some ⟨period, now + period⟩) :
    Paced period (t ++ [(now, x)]) s' c' where
  early hearly := by simp [hp'] at hearly
  serving _ := by
    obtain ⟨hnone, hnil⟩ := h.early (.inr hp)
    refine ⟨now, now + period, ?_, hticker, ?_⟩
    · rw [t.indexed?_concat_of_none hnone, if_pos hs]
    · rw [Timeline.since, t.rescans_concat_of_other hx, hnil]
      exact Ticker.first_isNext _ hperiod

theorem Paced.ticks (h : Paced period t s c) (hp : c.phase = .serving) (hp' : c'.phase = .serving)
    (hlong : Ticker.tolerance < period) (hx : x.isTick)
    (hticker : s'.task.ticker = s.task.ticker.map fun k => k.take now)
    (hnow : ∀ k ∈ s.task.ticker, k.due ≤ now) : Paced period (t ++ [(now, x)]) s' c' where
  early hearly := by simp [hp'] at hearly
  serving _ := by
    obtain ⟨first, due, hfirst, hdue, hnext⟩ := h.serving hp
    let k : Ticker := ⟨period, due⟩
    refine ⟨first, (k.take now).due, t.indexed?_concat_of_some hfirst, ?_, ?_⟩
    · rw [hticker, hdue, Option.map_some, Ticker.take_eq]
    · rw [Timeline.since, t.rescans_concat_of_tick hx, List.getLastD_concat]
      exact Ticker.take_isNext (k := k) hnext.tick hlong (hnow _ hdue)

theorem Paced.ends (hp' : c'.phase.isEnded) : Paced period t s' c' where
  early hearly := by rcases hearly with h | h <;> simp [h, RunPhase.isEnded] at hp'
  serving h := by simp [h, RunPhase.isEnded] at hp'

theorem isTick_eq_false (hx : ∀ n, x.input ≠ some (.tick n)) : x.isTick = false := by
  unfold Moment.isTick
  split
  · exact absurd ‹_› (hx _)
  · rfl

theorem Paced.move (h : Paced period t s c) (hperiod : c.period = some period)
    (hlong : Ticker.tolerance < period) (hc : s.task.controller = .real c) (m : Move)
    (hc' : (s.move m).1.task.controller = .real c')
    (p : Passage s c (s.move m).2 (s.move m).1 c') :
    Paced period (t ++ [(s.around.clock, (s.move m).2)]) (s.move m).1 c' := by
  have hphase : s.task.controller.phase = c.phase := by
    rw [hc]
    rfl
  -- All but ticks leave the clock of a run that serves alone.
  have hother (hx : ∀ n, (s.move m).2.input ≠ some (.tick n)) (hp : c.phase = .serving)
      (hp' : c'.phase = .serving) :
      Paced period (t ++ [(s.around.clock, (s.move m).2)]) (s.move m).1 c' :=
    h.quiet hp hp' (isTick_eq_false hx)
      (move_ticker_of_other (hphase.trans hp) fun n hi => hx n (s.move_input m ▸ hi))
  cases p with
  | turn turn took =>
    cases turn with
    | start idle =>
      exact h.waits (.inl idle) (by simp) (isTick_eq_false (by simp [took]))
        (by simp [Moment.success?, Moment.result?, took])
    | stop running => exact .ends rfl
    | failed indexing e => exact .ends rfl
    | indexed indexing index =>
      have hticker : (s.move m).1.task.ticker = some ⟨period, s.around.clock + period⟩ := by
        rcases s.move_ticker m (by rw [hc']; rfl) with ⟨hp, -⟩ | hnew
        · simp [hphase, indexing] at hp
        · rw [hnew, hc']
          simp [Controller.ticker?, RealController.countScan, hperiod]
      exact h.opens indexing rfl (Nat.zero_lt_of_lt hlong) (isTick_eq_false (by simp [took]))
        (by simp [Moment.success?, Moment.result?, took, Except.toOption]) hticker
    | rescanned serving | rescanFailed serving | message serving | queueEnded serving =>
      exact hother (by simp [took]) serving serving
    | tick serving free n =>
      have hi : s.input? m = some (.tick n) := s.move_input m ▸ took
      exact h.ticks serving serving hlong (by rw [Moment.isTick, took])
        (move_ticker_of_tick (hphase.trans serving) hi) fun k hk => due_of_tick hi hk
  | aside same took output =>
    subst same
    have hx : ∀ n, (s.move m).2.input ≠ some (.tick n) := by simp [took]
    have hwaits (hp : c'.phase = .idle ∨ c'.phase = .indexing) (hp' : c'.phase ≠ .serving) :
        Paced period (t ++ [(s.around.clock, (s.move m).2)]) (s.move m).1 c' :=
      h.waits hp hp' (isTick_eq_false hx) (by simp [Moment.success?, Moment.result?, took])
    cases hp : c'.phase with
    | idle => exact hwaits (.inl hp) (by simp [hp])
    | indexing => exact hwaits (.inr hp) (by simp [hp])
    | serving => exact hother hx hp hp
    | ended result => exact .ends (by rw [hp]; rfl)

end

section

variable {period : Nat} {t : Timeline}

theorem input?_tick_iff (hc : s.task.controller = .real c) :
    (s.input? .tick).isSome ↔ c.phase = .serving ∧ c.rescanning = false ∧
      ∃ k, s.task.ticker = some k ∧ k.due ≤ s.around.clock := by
  have hwants : s.task.controller.wantsTick ↔ c.phase = .serving ∧ c.rescanning = false := by
    rw [hc]
    exact RealController.wantsTick_iff
  rw [input?, ← and_assoc, ← hwants]
  simp [ControllerTask.isTickDue, Ticker.isDue, Option.any_eq_true]

theorem Paced.ready_iff (h : Paced period t s c) (one : OneScan s c)
    (hc : s.task.controller = .real c) : (s.input? .tick).isSome ↔
      c.phase = .serving ∧ s.inFlight = 0 ∧ t.Overdue period s.around.clock := by
  rw [input?_tick_iff hc]
  constructor
  · rintro ⟨serving, free, k, hk, hdue⟩
    obtain ⟨first, due, hfirst, hticker, hnext⟩ := h.serving serving
    obtain rfl := Option.some.inj (hk.symm.trans hticker)
    exact ⟨serving, one.free (by simp [RealController.isScanning, serving, free])
      (by rw [serving]; rfl), first, due, hfirst, hnext.tick, hnext.later, hdue⟩
  · rintro ⟨serving, hnone, first, due, hfirst, htick, hlater, hdue⟩
    obtain ⟨first', due', hfirst', hticker, hnext⟩ := h.serving serving
    obtain rfl := Option.some.inj (hfirst.symm.trans hfirst')
    refine ⟨serving, ?_, _, hticker, (hnext.le htick hlater).trans hdue⟩
    by_contra hbusy
    have := one.busy (by simp [RealController.isScanning, serving, hbusy])
    omega

theorem Paced.tick (h : Paced period t s c) (hc : s.task.controller = .real c) {n : Nat}
    (hi : s.input? m = some (.tick n)) :
    ∃ first due, t.indexed? = some first ∧ s.task.ticker = some ⟨period, due⟩ ∧
      Ticker.IsNext first period (t.since first) due ∧ due ≤ s.around.clock := by
  obtain ⟨serving, -⟩ := RealController.wantsTick_iff.1 (input?_awaits hc hi)
  obtain ⟨first, due, hfirst, hticker, hnext⟩ := h.serving serving
  exact ⟨first, due, hfirst, hticker, hnext, due_of_tick hi hticker⟩

/-- The end of a rescan leaves the run free for a tick, and takes none. -/
theorem move_endScan (one : OneScan s c) (hc : s.task.controller = .real c)
    (serving : c.phase = .serving) (busy : 0 < s.inFlight)
    (result : Except ControllerError FileIndex) :
    (s.move (.endScan result)).1.task.controller.phase = .serving ∧
      (s.move (.endScan result)).1.inFlight = 0 ∧
      (s.move (.endScan result)).1.around.clock = s.around.clock ∧
      (s.move (.endScan result)).2.isTick = false := by
  have hscanning : c.isScanning := by
    by_contra hfree
    have := one.free (by simpa using hfree) (by rw [serving]; rfl)
    omega
  have hi : s.input? (.endScan result) = some (.scanned result) :=
    (Ready.endScan busy (by rw [hc]; exact hscanning) result).input?_eq
  obtain ⟨c', hc', p⟩ := move_passage hc (.endScan result)
  have hclock : (s.move (.endScan result)).1.around.clock = s.around.clock := by
    simp only [move, hi, ControllerTask.take]
  have hquiet : (s.move (.endScan result)).2.isTick = false :=
    isTick_eq_false (by simp [move_input, hi])
  have hone := one.busy hscanning
  rw [hc']
  cases p with
  | turn turn took events scans inFlight =>
    obtain rfl := Option.some.inj (took.symm.trans ((s.move_input _).trans hi))
    cases turn with
    | indexed indexing => simp [serving] at indexing
    | failed indexing => simp [serving] at indexing
    | rescanned | rescanFailed =>
      exact ⟨serving, by rw [inFlight, hone]; rfl, hclock, hquiet⟩
  | aside same took => simp [move_input, hi] at took

theorem overdue_concat_of_other {now : Nat} {e : Nat × Moment} {first : Nat}
    (hfirst : t.indexed? = some first) (he : e.2.isTick = false) :
    Timeline.Overdue period (t ++ [e]) now ↔ t.Overdue period now := by
  simp only [Timeline.Overdue, Timeline.since, t.rescans_concat_of_other he, hfirst,
    t.indexed?_concat_of_some hfirst]

end

/-- When rescans are set off, in the runs from a start on. -/
structure Cadence (period : Nat) (start : Scene) : Prop where
  ready (ms : List Move) : (start.moment ms .tick).input.isSome ↔
    (start.after ms).task.controller.phase = .serving ∧ (start.after ms).inFlight = 0 ∧
      (start.timeline ms).Overdue period (start.after ms).around.clock
  /-- Behind a rescan stands the first tick that came due since the last one was set off. -/
  tick (ms : List Move) (m : Move) (n : Nat) : (start.moment ms m).input = some (.tick n) →
    ∃ first due, (start.timeline ms).indexed? = some first ∧
      (start.after ms).task.ticker = some ⟨period, due⟩ ∧
      Ticker.IsNext first period ((start.timeline ms).since first) due ∧
      due ≤ (start.after ms).around.clock
  /-- The other ticks that are due by then set off nothing, however late. -/
  skipped (ms more : List Move) (m m' : Move) (n n' : Nat) :
    (start.moment ms m).input = some (.tick n) →
    (start.moment (ms ++ m :: more) m').input = some (.tick n') →
    ∃ due, (start.after (ms ++ m :: more)).task.ticker = some ⟨period, due⟩ ∧
      (start.after ms).around.clock < due
  /-- A tick that came due during a rescan sets one off as soon as that is over. -/
  deferred (ms : List Move) (result : Except ControllerError FileIndex) :
    (start.after ms).task.controller.phase = .serving → 0 < (start.after ms).inFlight →
    ((start.moment (ms ++ [.endScan result]) .tick).input.isSome ↔
      (start.timeline ms).Overdue period (start.after ms).around.clock)

theorem run_paced (root : Path) (masks : List String) (period : Nat) (around : Surroundings)
    (hlong : Ticker.tolerance < period) (ms : List Move) :
    ∃ c, ((realOpening root masks (some period) around).after ms).task.controller = .real c ∧
      Steady root masks (some period) ((realOpening root masks (some period) around).after ms) c ∧
      Paced period ((realOpening root masks (some period) around).timeline ms)
        ((realOpening root masks (some period) around).after ms) c := by
  generalize hstart : realOpening root masks (some period) around = start
  induction ms using List.reverseRecOn with
  | nil =>
    subst hstart
    exact ⟨_, rfl, realOpening_steady root masks (some period) around, fun _ => ⟨rfl, rfl⟩,
      fun hserving => (nomatch hserving)⟩
  | append_singleton ms m ih =>
    obtain ⟨c, hc, hs, hpaced⟩ := ih
    obtain ⟨c', hc', p⟩ := move_passage hc m
    rw [after_concat, timeline_concat]
    exact ⟨c', hc', hs.move hc m hc' p, hpaced.move hs.period hlong hc m hc' p⟩

/-- When rescans are set off, for every time between two of them, however long they take and
whatever else happens. -/
theorem rescans_keep_time (root : Path) (masks : List String) (seconds : Nat)
    (around : Surroundings) (hseconds : 0 < seconds) :
    Cadence (seconds * 1000) (realOpening root masks (some (seconds * 1000)) around) := by
  have paced := run_paced root masks (seconds * 1000) around
    (by simp only [Ticker.tolerance]; omega)
  generalize realOpening root masks (some (seconds * 1000)) around = start at paced
  have hready (ms : List Move) : (start.moment ms .tick).input.isSome ↔
      (start.after ms).task.controller.phase = .serving ∧ (start.after ms).inFlight = 0 ∧
        (start.timeline ms).Overdue (seconds * 1000) (start.after ms).around.clock := by
    obtain ⟨c, hc, hs, hp⟩ := paced ms
    rw [moment, move_input, hc]
    exact hp.ready_iff hs.oneScan hc
  have htick (ms : List Move) (m : Move) (n : Nat)
      (hin : (start.moment ms m).input = some (.tick n)) :
      ∃ first due, (start.timeline ms).indexed? = some first ∧
        (start.after ms).task.ticker = some ⟨seconds * 1000, due⟩ ∧
        Ticker.IsNext first (seconds * 1000) ((start.timeline ms).since first) due ∧
        due ≤ (start.after ms).around.clock := by
    obtain ⟨c, hc, -, hp⟩ := paced ms
    exact hp.tick hc ((start.after ms).move_input m ▸ hin)
  constructor
  case ready => exact hready
  case tick => exact htick
  case skipped =>
    intro ms more m m' n n' hin hin'
    obtain ⟨first, due, -, hticker, hnext, -⟩ := htick _ m' n' hin'
    refine ⟨due, hticker, Nat.lt_of_le_of_lt ?_ hnext.later⟩
    rw [timeline_append, timeline]
    refine Timeline.le_since (e := ((start.after ms).around.clock, _)) _ ?_ fun e he => ?_
    · rw [Moment.isTick, ← moment, hin]
    · exact (clock_le_move _ m).trans (clock_le_timeline _ more e he)
  case deferred =>
    intro ms result hserving hbusy
    obtain ⟨c, hc, hs, hp⟩ := paced ms
    rw [hc] at hserving
    obtain ⟨first, due, hfirst, -⟩ := hp.serving hserving
    obtain ⟨hserves, hfree, hclock, hquiet⟩ := move_endScan hs.oneScan hc hserving hbusy result
    rw [hready, after_concat, timeline_concat, hclock, overdue_concat_of_other hfirst hquiet]
    exact ⟨fun h => h.2.2, fun h => ⟨hserves, hfree, h⟩⟩

theorem rescans_keep_time_each_second :
    0 < 1 ∧ Cadence 1000 (realOpening "data" [] (some 1000) { files := .empty }) :=
  ⟨by decide, rescans_keep_time "data" [] 1 { files := .empty } (by decide)⟩

/-- The tick at two seconds comes due during the rescan of the first. It sets off another one half a
second later, when no tick is due. -/
theorem overdue_tick_sets_off_rescan :
    let start := realOpening "data" [] (some 1000) { files := .empty }
    let moves := [.begin, .endScan (.ok ∅), .advance 1000, .tick, .advance 1000]
    let more := moves ++ [.advance 500, .endScan (.ok ∅)]
    (start.after moves).around.clock = 2000 ∧ (start.after moves).inFlight = 1 ∧
      (start.after more).task.ticker = some ⟨1000, 2000⟩ ∧
      (start.timeline (more ++ [.tick])).indexed? = some 0 ∧
      (start.timeline (more ++ [.tick])).rescans = [1000, 2500] ∧
      ¬ Ticker.IsTick 0 1000 2500 := by
  refine ⟨rfl, rfl, by decide +kernel, rfl, by decide +kernel, ?_⟩
  rintro ⟨k, hk⟩
  omega

end Scene

end SearchRelay
