import SearchRelay.Proofs.Controller.Passage
import SearchRelay.Proofs.FileIndex

namespace SearchRelay

def ControllerEvent.update? : ControllerEvent → Option IndexUpdate
  | indexUpdated u => some u
  | _ => none

def ControllerEvent.files? : ControllerEvent → Option Nat
  | status p => some p.files
  | indexUpdated u => some u.files
  | progress _ => none

def IndexUpdate.total (f : IndexUpdate → Nat) : List IndexUpdate → Nat
  | [] => 0
  | u :: us => f u + total f us

theorem IndexUpdate.total_append (f : IndexUpdate → Nat) (us vs : List IndexUpdate) :
    total f (us ++ vs) = total f us + total f vs := by
  induction us with
  | nil => exact (Nat.zero_add _).symm
  | cons u us ih => rw [List.cons_append, total, total, ih, Nat.add_assoc]

def Moment.updates (m : Moment) : List IndexUpdate :=
  m.output.events.filterMap ControllerEvent.update?

namespace History

/-- What the last successful scan found; nothing before the first. -/
def index (h : History) : FileIndex := h.successes.getLast?.getD ∅

def scans (h : History) : Nat := min h.successes.length RealController.maxScans

def updates (h : History) : List IndexUpdate := h.flatMap Moment.updates

def added (h : History) : Nat := IndexUpdate.total IndexUpdate.added h.updates

def removed (h : History) : Nat := IndexUpdate.total IndexUpdate.removed h.updates

variable (h : History) {m : Moment} {i : FileIndex}

theorem successes_append (k : History) : (h ++ k).successes = h.successes ++ k.successes :=
  List.filterMap_append

theorem updates_append (k : History) : (h ++ k).updates = h.updates ++ k.updates :=
  List.flatMap_append

theorem added_append (k : History) : (h ++ k).added = h.added + k.added := by
  rw [added, updates_append, IndexUpdate.total_append, added, added]

theorem removed_append (k : History) : (h ++ k).removed = h.removed + k.removed := by
  rw [removed, updates_append, IndexUpdate.total_append, removed, removed]

theorem index_concat_of_some (hm : m.success? = some i) : index (h ++ [m]) = i := by
  simp [index, hm]

theorem index_concat_of_none (hm : m.success? = none) : index (h ++ [m]) = h.index := by
  simp [index, hm]

theorem scans_concat_of_some (hm : m.success? = some i) :
    scans (h ++ [m]) = min (h.scans + 1) RealController.maxScans := by
  simp only [scans, successes_concat, hm, Option.toList_some, List.length_append,
    List.length_singleton]
  omega

theorem scans_concat_of_none (hm : m.success? = none) : scans (h ++ [m]) = h.scans := by
  simp [scans, hm]

theorem updates_concat (m : Moment) : updates (h ++ [m]) = h.updates ++ m.updates := by
  simp [updates]

theorem added_concat (m : Moment) :
    added (h ++ [m]) = h.added + IndexUpdate.total IndexUpdate.added m.updates := by
  rw [added, updates_concat, IndexUpdate.total_append, added]

theorem removed_concat (m : Moment) :
    removed (h ++ [m]) = h.removed + IndexUpdate.total IndexUpdate.removed m.updates := by
  rw [removed, updates_concat, IndexUpdate.total_append, removed]

end History

namespace Scene

/-- The books of a real controller agree with the history. -/
structure Ledger (h : History) (c : RealController) : Prop where
  index : c.index = h.index
  scans : c.scans = h.scans
  unscanned : c.phase = .idle ∨ c.phase = .indexing → h.results = []
  scanned : c.phase = .serving → h.successes ≠ []
  balance : h.index.size + h.removed = (h.successes.headD ∅).size + h.added

section

variable {h : History} {c c' : RealController} {x : Moment}

theorem Ledger.successes_of_unscanned (l : Ledger h c)
    (hp : c.phase = .idle ∨ c.phase = .indexing) : h.successes = [] := by
  rw [h.successes_eq, l.unscanned hp]
  rfl

theorem Ledger.not_indexing (l : Ledger h c)
    (hne : h.successes ≠ []) : c.phase ≠ .indexing :=
  fun hp => hne (l.successes_of_unscanned (.inr hp))

theorem Ledger.quiet (l : Ledger h c) (hs : x.success? = none) (hu : x.updates = [])
    (index : c'.index = c.index) (scans : c'.scans = c.scans)
    (unscanned : c'.phase = .idle ∨ c'.phase = .indexing →
      (c.phase = .idle ∨ c.phase = .indexing) ∧ x.result? = none)
    (scanned : c'.phase = .serving → c.phase = .serving) : Ledger (h ++ [x]) c' where
  index := by rw [index, l.index, History.index_concat_of_none h hs]
  scans := by rw [scans, l.scans, History.scans_concat_of_none h hs]
  unscanned hp := by
    obtain ⟨hp, hr⟩ := unscanned hp
    simp [l.unscanned hp, hr]
  scanned hp := by simpa [hs] using l.scanned (scanned hp)
  balance := by
    have hb := l.balance
    simpa [History.index_concat_of_none h hs, hs, History.added_concat, History.removed_concat, hu,
      IndexUpdate.total] using hb

theorem Ledger.indexed (l : Ledger h c) (hp : c.phase = .indexing) {index : FileIndex}
    (hs : x.success? = some index) (hu : x.updates = []) :
    Ledger (h ++ [x]) { c with index, phase := .serving }.countScan where
  index := (History.index_concat_of_some h hs).symm
  scans := by
    rw [History.scans_concat_of_some h hs, ← l.scans]
    rfl
  unscanned := by simp [RealController.countScan]
  scanned _ := by simp [hs]
  balance := by
    have h0 := l.successes_of_unscanned (.inr hp)
    have hb : h.removed = h.added := by simpa [History.index, h0] using l.balance
    rw [History.index_concat_of_some h hs, h.successes_concat, h0, hs]
    simpa [History.added_concat, History.removed_concat, hu, IndexUpdate.total] using hb

theorem adopt_events (c : RealController) (fresh : FileIndex) :
    (c.adopt fresh).2.events =
      if fresh.paths = c.index.paths then []
      else [.indexUpdated ⟨fresh.size, (fresh.paths \ c.index.paths).card,
        (c.index.paths \ fresh.paths).card⟩] := by
  rw [← FileIndex.diff_added, ← FileIndex.diff_removed]
  by_cases hp : fresh.paths = c.index.paths
  · rw [if_pos hp]
    exact if_neg fun hc => (FileIndex.diff_changed_iff _ _).1 hc hp
  · rw [if_neg hp]
    exact if_pos ((FileIndex.diff_changed_iff _ _).2 hp)

/-- What there was, with what is told of a rescan, is what there is. -/
theorem adopt_balance (c : RealController) (fresh : FileIndex) {x : Moment}
    (hx : x.output.events = (c.adopt fresh).2.events) :
    fresh.size + IndexUpdate.total IndexUpdate.removed x.updates =
      c.index.size + IndexUpdate.total IndexUpdate.added x.updates := by
  have hd := c.index.diff_conserves fresh
  simp only [Moment.updates, hx, RealController.adopt]
  split
  · simpa [ControllerEvent.update?, IndexUpdate.total] using hd
  · rename_i hn
    obtain ⟨ha, hr⟩ : (c.index.diff fresh).added = 0 ∧ (c.index.diff fresh).removed = 0 := by
      omega
    simpa [ha, hr, IndexUpdate.total] using hd

theorem Ledger.rescanned (l : Ledger h c) (hp : c.phase = .serving) {fresh : FileIndex}
    (hs : x.success? = some fresh) (hx : x.output.events = (c.adopt fresh).2.events) :
    Ledger (h ++ [x]) (c.adopt fresh).1 where
  index := (History.index_concat_of_some h hs).symm
  scans := by
    rw [History.scans_concat_of_some h hs, ← l.scans]
    rfl
  unscanned := by simp [RealController.adopt, RealController.countScan, hp]
  scanned _ := by simp [hs]
  balance := by
    obtain ⟨first, rest, h0⟩ := List.exists_cons_of_ne_nil (l.scanned hp)
    have hb := l.balance
    have hd := adopt_balance c fresh hx
    rw [← l.index, h0, List.headD_cons] at hb
    rw [History.index_concat_of_some h hs, h.successes_concat, h0, List.cons_append,
      List.headD_cons, h.added_concat, h.removed_concat]
    omega

end

theorem Ledger.turn {h : History} {c c' : RealController} {now : Timestamp}
    {input : ControllerInput} {o : ControllerOutput} {x : Moment} (l : Ledger h c)
    (t : RealController.Turn now c input c' o) (took : x.input = some input)
    (events : x.output.events = o.events) : Ledger (h ++ [x]) c' := by
  have hs : x.success? = (Moment.success? { input := some input }) := by
    simp [Moment.success?, Moment.result?, took]
  cases t with
  | start idle =>
    exact l.quiet hs
      (by simp [Moment.updates, events, RealController.status, ControllerEvent.update?]) rfl rfl
      (by simp [idle, Moment.result?, took]) (by simp)
  | stop running =>
    exact l.quiet hs
      (by simp [Moment.updates, events, RealController.status, ControllerEvent.update?]) rfl rfl
      (by simp) (by simp)
  | indexed indexing index =>
    exact l.indexed indexing hs
      (by simp [Moment.updates, events, RealController.status, ControllerEvent.update?])
  | failed indexing e =>
    exact l.quiet hs (by simp [Moment.updates, events]) rfl rfl (by simp) (by simp)
  | rescanned serving busy index => exact l.rescanned serving hs events
  | rescanFailed serving busy e =>
    exact l.quiet hs (by simp [Moment.updates, events]) rfl rfl (by simp [serving]) id
  | message serving listens m =>
    exact l.quiet hs
      (by simp [Moment.updates, events, RealController.status, ControllerEvent.update?]) rfl rfl
      (by simp [serving]) id
  | queueEnded serving listens =>
    exact l.quiet hs (by simp [Moment.updates, events]) rfl rfl (by simp [serving]) id
  | tick serving free draw =>
    exact l.quiet hs (by simp [Moment.updates, events]) rfl rfl (by simp [serving]) id

theorem Ledger.passage {h : History} {s s' : Scene} {c c' : RealController} {x : Moment}
    (l : Ledger h c) (p : Passage s c x s' c') : Ledger (h ++ [x]) c' := by
  cases p with
  | turn turn took events => exact l.turn turn took events
  | aside same took output =>
    subst same
    exact l.quiet (by simp [Moment.success?, Moment.result?, took])
      (by simp [Moment.updates, output]) rfl rfl
      (fun hp => ⟨hp, by simp [Moment.result?, took]⟩) id

theorem ledger_nil (root : Path) (masks : List String) (period : Option Nat) :
    Ledger [] (.fresh root masks period) where
  index := rfl
  scans := rfl
  unscanned _ := rfl
  scanned := by simp [RealController.fresh]
  balance := rfl

/-- What clients are told of files and scans, from a start on. -/
structure Accounting (start : Scene) : Prop where
  /-- The controller holds what the last successful scan found, and counts the successful scans. -/
  held (ms : List Move) : ∃ c, (start.after ms).task.controller = .real c ∧
    c.index = (start.past ms).index ∧ c.scans = (start.past ms).scans
  told (ms : List Move) (m : Move) (p : StatusPayload) :
    .status p ∈ (start.moment ms m).output.events →
      p.files = (start.past (ms ++ [m])).index.size ∧ p.scans = (start.past (ms ++ [m])).scans
  rescanned (ms : List Move) (m : Move) (fresh : FileIndex) :
    (start.moment ms m).input = some (.scanned (.ok fresh)) → (start.past ms).successes ≠ [] →
      (start.moment ms m).output.events =
        if fresh.paths = (start.past ms).index.paths then []
        else [.indexUpdated ⟨fresh.size, (fresh.paths \ (start.past ms).index.paths).card,
          ((start.past ms).index.paths \ fresh.paths).card⟩]
  updated (ms : List Move) (m : Move) (u : IndexUpdate) :
    .indexUpdated u ∈ (start.moment ms m).output.events →
      (∃ fresh, (start.moment ms m).input = some (.scanned (.ok fresh))) ∧
        (start.past ms).successes ≠ []
  conserved (ms more : List Move) : (start.past ms).successes ≠ [] →
    (start.past (ms ++ more)).index.size + ((start.after ms).past more).removed =
      (start.past ms).index.size + ((start.after ms).past more).added
  failed (ms : List Move) (m : Move) (e : ControllerError) :
    (start.moment ms m).input = some (.scanned (.error e)) → (start.past ms).successes ≠ [] →
      (start.moment ms m).output.events = [] ∧
      ∃ c c', (start.after ms).task.controller = .real c ∧
        (start.after (ms ++ [m])).task.controller = .real c' ∧
        c'.index = c.index ∧ c'.scans = c.scans ∧ c'.wantsTick ∧
        (c'.period.isSome → ∃ wait, ∀ d, wait ≤ d →
          (start.moment (ms ++ [m, .advance d]) .tick).output.scans = 1)
  /-- Nothing that is found after the end is taken. -/
  abandoned (ms : List Move) (m : Move) :
    (start.after ms).task.controller.phase.isEnded → (start.moment ms m).input = none ∧
      (start.after (ms ++ [m])).task.controller = (start.after ms).task.controller

def Newest (h : History) (c : RealController) : Prop :=
  ∀ e, h.events.getLast? = some e → e.files? = some c.index.size

theorem turn_tells {now : Timestamp} {c c' : RealController} {input : ControllerInput}
    {o : ControllerOutput} (t : RealController.Turn now c input c' o) :
    (o.events = [] ∧ c'.index.size = c.index.size) ∨
      ∃ e, o.events = [e] ∧ e.files? = some c'.index.size := by
  cases t with
  | start | stop | indexed | message => exact .inr ⟨_, rfl, rfl⟩
  | failed | rescanFailed | queueEnded | tick => exact .inl ⟨rfl, rfl⟩
  | rescanned serving busy fresh =>
    rw [adopt_events]
    split
    · rename_i hp
      exact .inl ⟨rfl, FileIndex.size_eq_of_paths_eq _ _ hp⟩
    · exact .inr ⟨_, rfl, rfl⟩

theorem Newest.passage {h : History} {s s' : Scene} {c c' : RealController} {x : Moment}
    (n : Newest h c) (p : Passage s c x s' c') : Newest (h ++ [x]) c' := by
  intro e he
  rw [History.events_concat] at he
  cases p with
  | turn turn took events =>
    rw [events] at he
    rcases turn_tells turn with ⟨hnone, hsize⟩ | ⟨e', hone, hfiles⟩
    · rw [hnone, List.append_nil] at he
      rw [hsize]
      exact n e he
    · rw [hone, List.getLast?_concat] at he
      exact Option.some.inj he ▸ hfiles
  | aside same took output =>
    subst same
    simp only [output, List.append_nil] at he
    exact n e he

theorem tick_scans {s : Scene} {c : RealController} (hc : s.task.controller = .real c)
    (hk : Clocked s c) (hw : c.wantsTick) (hp : c.period.isSome) :
    ∃ wait, ∀ d, wait ≤ d → (s.moment [.advance d] .tick).output.scans = 1 := by
  have hsome : s.task.ticker.isSome := (hk (RealController.wantsTick_iff.1 hw).1).trans hp
  obtain ⟨k, hticker⟩ := Option.isSome_iff_exists.1 hsome
  refine ⟨k.due, fun d hd => ?_⟩
  have hi := input?_tick (by rw [hc]; exact hw) hticker hd
  have hc' : (s.after [.advance d]).task.controller = .real c := hc
  rw [moment, move_scans hc' hi, RealController.step_tick _ hw]

section

variable {root : Path} {masks : List String} {period : Option Nat} {around : Surroundings}

theorem run_ledger (ms : List Move) :
    ∃ c, ((realOpening root masks period around).after ms).task.controller = .real c ∧
      Steady root masks period ((realOpening root masks period around).after ms) c ∧
      Ledger ((realOpening root masks period around).past ms) c := by
  refine run_real_keeps (P := fun h s c => Steady root masks period s c ∧ Ledger h c) ?_ rfl
    ⟨realOpening_steady root masks period around, ledger_nil root masks period⟩ ms
  rintro h s c m c' hc hc' p ⟨hs, hl⟩
  exact ⟨hs.move hc m hc' p, hl.passage p⟩

theorem run_newest (ms : List Move) :
    ∃ c, ((realOpening root masks period around).after ms).task.controller = .real c ∧
      Newest ((realOpening root masks period around).past ms) c :=
  run_real_keeps (P := fun h _ c => Newest h c) (fun _ _ _ _ _ _ _ p n => n.passage p) rfl
    (fun _ he => nomatch he) ms

/-- The files that clients are told of are accounted for, in every run. -/
theorem run_accounts (root : Path) (masks : List String) (period : Option Nat)
    (around : Surroundings) : Accounting (realOpening root masks period around) := by
  generalize hstart : realOpening root masks period around = start
  have ledger (ms : List Move) : ∃ c, (start.after ms).task.controller = .real c ∧
      Steady root masks period (start.after ms) c ∧ Ledger (start.past ms) c :=
    hstart ▸ run_ledger ms
  constructor
  case held =>
    intro ms
    obtain ⟨c, hc, -, hl⟩ := ledger ms
    exact ⟨c, hc, hl.index, hl.scans⟩
  case told =>
    intro ms m p hp
    obtain ⟨c, hc, -, hl⟩ := ledger ms
    obtain ⟨c', -, passage⟩ := move_passage hc m
    have hl' := hl.passage passage
    rw [past_concat, moment, ← hl'.index, ← hl'.scans]
    cases passage with
    | turn turn took events => exact turn.status_eq (events ▸ hp)
    | aside same took output => simp [moment, output] at hp
  case rescanned =>
    intro ms m fresh hin hne
    obtain ⟨c, hc, -, hl⟩ := ledger ms
    obtain ⟨c', o, -, turn, events⟩ := turn_of_input hc hin
    cases turn with
    | indexed indexing => exact absurd indexing (hl.not_indexing hne)
    | rescanned serving busy => rw [moment, events, adopt_events, hl.index]
  case updated =>
    intro ms m u hu
    obtain ⟨c, hc, -, hl⟩ := ledger ms
    obtain ⟨c', -, passage⟩ := move_passage hc m
    cases passage with
    | turn turn took events =>
      obtain ⟨serving, fresh, rfl⟩ := turn.rescanned_of_update (events ▸ hu)
      exact ⟨⟨fresh, took⟩, hl.scanned serving⟩
    | aside same took output => simp [moment, output] at hu
  case conserved =>
    intro ms more hne
    obtain ⟨c, -, -, hl⟩ := ledger ms
    obtain ⟨c', -, -, hl'⟩ := ledger (ms ++ more)
    obtain ⟨first, rest, h0⟩ := List.exists_cons_of_ne_nil hne
    -- Both points are in balance with the first scan, hence with each other.
    have hbefore := hl.balance
    have hafter := hl'.balance
    rw [past_append] at hafter ⊢
    rw [History.successes_append, h0, List.cons_append, List.headD_cons, History.added_append,
      History.removed_append] at hafter
    rw [h0, List.headD_cons] at hbefore
    omega
  case failed =>
    intro ms m e hin hne
    obtain ⟨c, hc, hs, hl⟩ := ledger ms
    obtain ⟨c', hc', passage⟩ := move_passage hc m
    have hs' := hs.move hc m hc' passage
    cases passage with
    | turn turn took events =>
      obtain rfl := Option.some.inj (took.symm.trans hin)
      cases turn with
      | failed indexing => exact absurd indexing (hl.not_indexing hne)
      | rescanFailed serving busy =>
        have hw : ({ c with rescanning := false } : RealController).wantsTick :=
          RealController.wantsTick_iff.2 ⟨serving, rfl⟩
        rw [← after_concat] at hc' hs'
        refine ⟨events, c, _, hc, hc', rfl, rfl, hw, fun hp => ?_⟩
        obtain ⟨wait, h⟩ := tick_scans hc' hs'.clocked hw hp
        refine ⟨wait, fun d hd => ?_⟩
        rw [← h d hd, ← moment_append, List.append_assoc]
        rfl
    | aside same took => simp [moment, took] at hin
  case abandoned =>
    intro ms m he
    obtain ⟨c, hc, -, -⟩ := ledger ms
    obtain ⟨c', hc', passage⟩ := move_passage hc m
    rw [hc] at he
    cases passage with
    | turn turn took events =>
      rw [Controller.phase, turn.not_ended] at he
      simp at he
    | aside same took => exact ⟨took, by rw [after_concat, hc', hc, same]⟩

end

end Scene

end SearchRelay
