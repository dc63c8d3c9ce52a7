import SearchRelay.Proofs.Controller.Accounting
import SearchRelay.Proofs.Controller.Lasting

namespace SearchRelay

def Says (root : Path) (state : ControllerState) (files scans : Nat) (e : ControllerEvent) : Prop :=
  ∃ now, e = .status ⟨state, root, files, scans, false, now⟩

/-- What may come after the first scan: the controller is ready still, or the files changed. -/
def Continues (root : Path) (e : ControllerEvent) : Prop :=
  (∃ files scans, Says root .ready files scans e) ∨ ∃ u, e = .indexUpdated u

/-- What clients have heard when a run has taken some results of scans and is in some phase. -/
inductive Course (root : Path) :
    List (Except ControllerError FileIndex) → RunPhase → List ControllerEvent → Prop
  | idle : Course root [] .idle []
  | indexing {i : ControllerEvent} (hi : Says root .indexing 0 0 i) : Course root [] .indexing [i]
  | givenUp {i s : ControllerEvent} (hi : Says root .indexing 0 0 i)
      (hs : Says root .stopped 0 0 s) : Course root [] (.ended (.ok ())) [i, s]
  | failed {i : ControllerEvent} (hi : Says root .indexing 0 0 i) (e : ControllerError) :
      Course root [.error e] (.ended (.error e)) [i]
  | serving {i r : ControllerEvent} {es : List ControllerEvent} {index : FileIndex}
      (hi : Says root .indexing 0 0 i) (hr : Says root .ready index.size 1 r)
      (hes : ∀ e ∈ es, Continues root e) (rs : List (Except ControllerError FileIndex)) :
      Course root (.ok index :: rs) .serving (i :: r :: es)
  | stopped {i r s : ControllerEvent} {es : List ControllerEvent} {index : FileIndex}
      (hi : Says root .indexing 0 0 i) (hr : Says root .ready index.size 1 r)
      (hes : ∀ e ∈ es, Continues root e) (hs : ∃ files scans, Says root .stopped files scans s)
      (rs : List (Except ControllerError FileIndex)) :
      Course root (.ok index :: rs) (.ended (.ok ())) (i :: r :: (es ++ [s]))

namespace Course

variable {root : Path} {rs more : List (Except ControllerError FileIndex)}
  {es new : List ControllerEvent}

theorem go_on (h : Course root rs .serving es) (hnew : ∀ e ∈ new, Continues root e)
    (more : List (Except ControllerError FileIndex)) :
    Course root (rs ++ more) .serving (es ++ new) := by
  cases h with
  | @serving _ _ es _ hi hr hes rs =>
    have hall : ∀ e ∈ es ++ new, Continues root e := by
      intro e he
      rcases List.mem_append.1 he with he | he
      · exact hes e he
      · exact hnew e he
    exact .serving hi hr hall (rs ++ more)

theorem results_of_failed {e : ControllerError} (h : Course root rs (.ended (.error e)) es) :
    rs = [.error e] := by
  cases h
  rfl

variable {c c' : RealController} {now : Timestamp} {input : ControllerInput}
  {o : ControllerOutput} {x : Moment}

theorem turn (h : Course root rs c.phase es) (hroot : c.root = root)
    (hbefore : c.phase = .idle ∨ c.phase = .indexing → c.index.size = 0 ∧ c.scans = 0)
    (t : RealController.Turn now c input c' o) (took : x.input = some input)
    (events : x.output.events = o.events) :
    Course root (rs ++ x.result?.toList) c'.phase (es ++ x.output.events) := by
  subst hroot
  have hres : x.result? = Moment.result? { input := some input } := by
    simp [Moment.result?, took]
  rw [hres, events]
  cases t with
  | start idle =>
    obtain ⟨h0, hs⟩ := hbefore (.inl idle)
    rw [idle] at h
    cases h
    exact .indexing ⟨now, by rw [RealController.status, h0, hs]⟩
  | stop running =>
    rcases running with indexing | serving
    · obtain ⟨h0, hs⟩ := hbefore (.inr indexing)
      rw [indexing] at h
      cases h with
      | indexing hi => exact .givenUp hi ⟨now, by rw [RealController.status, h0, hs]⟩
    · rw [serving] at h
      cases h with
      | serving hi hr hes rs =>
        have hs : ∃ files scans, Says c.root .stopped files scans (c.status now .stopped) :=
          ⟨c.index.size, c.scans, now, rfl⟩
        simpa [Moment.result?] using stopped hi hr hes hs rs
  | indexed indexing index =>
    obtain ⟨-, hs⟩ := hbefore (.inr indexing)
    rw [indexing] at h
    cases h with
    | indexing hi =>
      refine .serving hi ⟨now, ?_⟩ (by simp) []
      simp only [RealController.status, RealController.countScan, hs]
      rfl
  | failed indexing e =>
    rw [indexing] at h
    cases h with
    | indexing hi => exact .failed hi e
  | rescanned serving busy index =>
    have hnew : ∀ e ∈ (c.adopt index).2.events, Continues c.root e := by
      intro e he
      rw [Scene.adopt_events] at he
      split at he
      · simp at he
      · exact .inr ⟨_, List.mem_singleton.1 he⟩
    rw [serving] at h
    exact serving ▸ h.go_on hnew _
  | rescanFailed serving busy e =>
    rw [serving] at h
    exact serving ▸ h.go_on (List.forall_mem_nil _) _
  | message serving listens m =>
    have hnew : ∀ e ∈ [c.status now .ready], Continues c.root e := by
      intro e he
      exact .inl ⟨c.index.size, c.scans, now, List.mem_singleton.1 he⟩
    rw [serving] at h ⊢
    exact h.go_on hnew _
  | queueEnded serving listens =>
    rw [serving] at h
    exact serving ▸ h.go_on (List.forall_mem_nil _) _
  | tick serving free draw =>
    rw [serving] at h
    exact serving ▸ h.go_on (List.forall_mem_nil _) _

end Course

namespace Scene

/-- Clients heard that the controller is ready once after the first scan, and once for every
message. -/
structure Replies (h : History) : Prop where
  early : h.successes = [] → h.consumed = []
  count : h.events.countP ControllerEvent.isReady =
    (if h.successes = [] then 0 else 1) + h.consumed.length

/-- Messages are taken in the order in which they were put, and none is passed over. -/
structure Fed (waiting : List QueueMessage) (h : History) (s : Scene) : Prop where
  fifo : h.consumed <+: waiting ++ h.accepted
  whole : s.task.controller.phase.isEnded = false →
    waiting ++ h.accepted = h.consumed ++ s.around.queue.waiting

section

variable {h : History} {s s' : Scene} {c c' : RealController} {x : Moment}

theorem course_passage {root : Path} (co : Course root h.results c.phase h.events)
    (hroot : c.root = root) (l : Ledger h c) (p : Passage s c x s' c') :
    Course root (History.results (h ++ [x])) c'.phase (History.events (h ++ [x])) := by
  rw [History.results_concat, History.events_concat]
  cases p with
  | turn turn took events =>
    refine co.turn hroot (fun hp => ?_) turn took events
    have h0 := l.successes_of_unscanned hp
    rw [l.index, l.scans, History.index, History.scans, h0]
    exact ⟨rfl, rfl⟩
  | aside same took output => simpa [same, Moment.result?, took, output] using co

theorem Replies.quiet (r : Replies h) (hs : x.success? = none) (hm : x.message? = none)
    (hr : x.output.events.countP ControllerEvent.isReady = 0) : Replies (h ++ [x]) where
  early := by simpa [hs, hm] using r.early
  count := by
    have hc := r.count
    simp only [History.events_concat, List.countP_append, hr, History.successes_concat, hs,
      History.consumed_concat, hm, Option.toList_none, List.append_nil, Nat.add_zero]
    exact hc

theorem Replies.first (r : Replies h) (h0 : h.successes = []) {index : FileIndex}
    (hs : x.success? = some index) (hm : x.message? = none)
    (hr : x.output.events.countP ControllerEvent.isReady = 1) : Replies (h ++ [x]) where
  early := by simp [hs]
  count := by
    have hc := r.count
    rw [if_pos h0, r.early h0] at hc
    simp [hc, hr, hs, hm, r.early h0]

theorem Replies.later (r : Replies h) (hne : h.successes ≠ [])
    (hr : x.output.events.countP ControllerEvent.isReady = x.message?.toList.length) :
    Replies (h ++ [x]) where
  early := by simp [hne]
  count := by
    have hc := r.count
    rw [if_neg hne] at hc
    rw [History.events_concat, List.countP_append, hc, hr, History.consumed_concat,
      List.length_append, if_neg (by simp [hne]), Nat.add_assoc]

theorem Replies.passage (r : Replies h) (l : Ledger h c) (p : Passage s c x s' c') :
    Replies (h ++ [x]) := by
  cases p with
  | aside same took output =>
    exact r.quiet (by simp [Moment.success?, Moment.result?, took])
      (by simp [Moment.message?, took]) (by simp [output])
  | @turn input o turn took events =>
    have hs : x.success? = Moment.success? { input := some input } := by
      simp [Moment.success?, Moment.result?, took]
    have hm : x.message? = Moment.message? { input := some input } := by
      simp [Moment.message?, took]
    cases turn with
    | start idle => exact r.quiet hs hm (by rw [events]; rfl)
    | stop running => exact r.quiet hs hm (by rw [events]; rfl)
    | indexed indexing index =>
      exact r.first (l.successes_of_unscanned (.inr indexing)) hs hm (by rw [events]; rfl)
    | failed indexing e => exact r.quiet hs hm (by rw [events]; rfl)
    | rescanned serving busy index =>
      refine r.later (l.scanned serving) ?_
      rw [events, adopt_events, hm]
      split <;> rfl
    | rescanFailed serving busy e => exact r.quiet hs hm (by rw [events]; rfl)
    | message serving listens m =>
      refine r.later (l.scanned serving) ?_
      rw [events, hm]
      rfl
    | queueEnded serving listens => exact r.quiet hs hm (by rw [events]; rfl)
    | tick serving free draw => exact r.quiet hs hm (by rw [events]; rfl)

theorem run_ended (hc : s.task.controller = .real c) (he : c.phase.isEnded) (ms : List Move) :
    (s.after ms).task.controller = .real c ∧ (s.past ms).events = [] := by
  have hended : s.task.controller.phase.isEnded := by
    rw [hc]
    exact he
  rw [← hc]
  exact run_of_ended hended ms

theorem message?_of_ended {x : Moment} (p : Passage s c x s' c') (he : c'.phase.isEnded) :
    x.message? = none := by
  cases p with
  | aside same took => simp [Moment.message?, took]
  | turn turn took =>
    cases turn with
    | message serving => exact absurd he (by simp [serving, RunPhase.isEnded])
    | _ => simp [Moment.message?, took]

theorem Fed.move {waiting : List QueueMessage} (f : Fed waiting h s)
    (hc : s.task.controller = .real c) (m : Move) (hc' : (s.move m).1.task.controller = .real c')
    (p : Passage s c (s.move m).2 (s.move m).1 c') :
    Fed waiting (h ++ [(s.move m).2]) (s.move m).1 := by
  have hopen : c'.phase.isEnded = false → s.task.controller.phase.isEnded = false := by
    intro he
    rw [hc]
    cases p with
    | turn turn => exact turn.not_ended
    | aside same => exact same ▸ he
  cases he : c'.phase.isEnded with
  | false =>
    have hw := f.whole (hopen he)
    have hq := move_queue m (by rw [hc']; exact he)
    have hwhole : waiting ++ History.accepted (h ++ [(s.move m).2]) =
        History.consumed (h ++ [(s.move m).2]) ++ (s.move m).1.around.queue.waiting := by
      rw [History.accepted_concat, History.consumed_concat, ← List.append_assoc, hw,
        List.append_assoc, hq, List.append_assoc]
    exact ⟨⟨_, hwhole.symm⟩, fun _ => hwhole⟩
  | true =>
    -- The queue goes with the run, but no message was taken from it in this move.
    refine ⟨?_, fun hopen => ?_⟩
    · rw [History.accepted_concat, History.consumed_concat, message?_of_ended p he]
      simpa [← List.append_assoc] using f.fifo.trans (List.prefix_append _ _)
    · exact absurd hopen (by simp [hc', Controller.phase, he])

end

/-- What clients hear of a run, and what those who put messages can rely on, from a start on. -/
structure Conduct (root : Path) (start : Scene) : Prop where
  begins (ms : List Move) : (start.after ms).task.controller.phase = .idle →
    (start.after (ms ++ [.begin])).task.controller.phase = .indexing ∧
      ∃ e, (start.moment ms .begin).output.events = [e] ∧ Says root .indexing 0 0 e
  indexes (ms : List Move) (r : Except ControllerError FileIndex) :
    (start.after ms).task.controller.phase = .indexing →
      (start.moment ms (.endScan r)).input = some (.scanned r)
  stops (ms : List Move) : .requestStop ∈ ms →
    (start.after ms).task.controller.phase.isRunning →
      (start.after (ms ++ [.heedStop])).task.controller.phase = .ended (.ok ())
  course (ms : List Move) : ∃ c, (start.after ms).task.controller = .real c ∧
    Course root (start.past ms).results c.phase (start.past ms).events
  readyCount (ms : List Move) : (start.past ms).successes ≠ [] →
    (start.past ms).events.countP ControllerEvent.isReady = 1 + (start.past ms).consumed.length
  /-- No message is taken before the controller was ready. -/
  readyFirst (ms : List Move) (m : Move) (q : QueueMessage) :
    (start.moment ms m).input = some (.message q) →
      ∃ e ∈ (start.past ms).events, e.isReady
  replies (ms : List Move) (m : Move) (q : QueueMessage) :
    (start.moment ms m).input = some (.message q) →
      ∃ e files scans, (start.moment ms m).output.events = [e] ∧ Says root .ready files scans e
  fifo (ms : List Move) :
    (start.past ms).consumed <+: start.around.queue.waiting ++ (start.past ms).accepted
  /-- Until the end, a message that was put and not yet taken waits. -/
  waits (ms : List Move) : (start.after ms).task.controller.phase.isEnded = false →
    start.around.queue.waiting ++ (start.past ms).accepted =
      (start.past ms).consumed ++ (start.after ms).around.queue.waiting
  closing (ms : List Move) (m : Move) : (start.moment ms m).input = some .queueEnded →
    (start.moment ms m).output.events = [] ∧
      (start.after (ms ++ [m])).task.controller.phase = .serving
  ended (ms more : List Move) : (start.after ms).task.controller.phase.isEnded →
    (start.past (ms ++ more)).events = (start.past ms).events ∧
      (start.after (ms ++ more)).task.controller = (start.after ms).task.controller
  oneScan (ms : List Move) : (start.after ms).inFlight ≤ 1

theorem run_invariant (root : Path) (masks : List String) (period : Option Nat)
    (around : Surroundings) (ms : List Move) :
    ∃ c, ((realOpening root masks period around).after ms).task.controller = .real c ∧
      Steady root masks period ((realOpening root masks period around).after ms) c ∧
      Ledger ((realOpening root masks period around).past ms) c ∧
      Course root ((realOpening root masks period around).past ms).results c.phase
        ((realOpening root masks period around).past ms).events ∧
      Replies ((realOpening root masks period around).past ms) ∧
      Fed around.queue.waiting ((realOpening root masks period around).past ms)
        ((realOpening root masks period around).after ms) := by
  refine run_real_keeps (P := fun h s c => Steady root masks period s c ∧ Ledger h c ∧
    Course root h.results c.phase h.events ∧ Replies h ∧ Fed around.queue.waiting h s) ?_ rfl
    ⟨realOpening_steady root masks period around, ledger_nil root masks period, .idle,
      ⟨fun _ => rfl, rfl⟩, ⟨List.nil_prefix, fun _ => List.append_nil _⟩⟩ ms
  rintro h s c m c' hc hc' p ⟨hs, hl, hco, hr, hf⟩
  exact ⟨hs.move hc m hc' p, hl.passage p, course_passage hco hs.root hl p, hr.passage hl p,
    hf.move hc m hc' p⟩

/-- Every run of a real controller keeps to its course. -/
theorem run_conducts (root : Path) (masks : List String) (period : Option Nat)
    (around : Surroundings) : Conduct root (realOpening root masks period around) := by
  have invariant := run_invariant root masks period around
  have hqueue : (realOpening root masks period around).around.queue = around.queue := rfl
  -- Every clause follows from what always holds at its moment, whatever came before.
  generalize realOpening root masks period around = start at invariant hqueue
  rw [← hqueue] at invariant
  constructor
  case begins =>
    intro ms hidle
    obtain ⟨c, hc, hs, hl, -⟩ := invariant ms
    have idle : c.phase = .idle := by rwa [hc] at hidle
    obtain ⟨c', o, hc', turn, events⟩ := turn_of_input hc (Ready.begin hidle).taken
    rw [after_concat, hc', moment, events]
    cases turn with
    | start =>
      have h0 := hl.successes_of_unscanned (.inl idle)
      refine ⟨rfl, _, rfl, ControllerTask.timestamp (start.after ms).around.clock, ?_⟩
      rw [RealController.status, hs.root, hl.index, hl.scans, History.index, History.scans, h0]
      rfl
  case indexes =>
    intro ms r hindexing
    obtain ⟨c, hc, hs, -⟩ := invariant ms
    have scanning : c.isScanning :=
      RealController.isScanning_iff.2 (.inl (by rwa [hc] at hindexing))
    refine (Ready.endScan ?_ ?_ r).taken
    · rw [hs.oneScan.busy scanning]
      exact Nat.one_pos
    · rw [hc]
      exact scanning
  case stops =>
    intro ms hasked hrunning
    obtain ⟨c, hc, -⟩ := invariant ms
    have asked : (start.after ms).task.stopRequested :=
      (start.after_stopRequested ms).2 (.inr hasked)
    obtain ⟨c', o, hc', turn, -⟩ := turn_of_input hc (Ready.heedStop asked hrunning).taken
    rw [after_concat, hc']
    cases turn with
    | stop => rfl
  case course =>
    intro ms
    obtain ⟨c, hc, -, -, hco, -⟩ := invariant ms
    exact ⟨c, hc, hco⟩
  case readyCount =>
    intro ms hne
    obtain ⟨c, -, -, -, -, hr, -⟩ := invariant ms
    rw [hr.count, if_neg hne]
  case readyFirst =>
    intro ms m q hin
    obtain ⟨c, hc, -, hl, -, hr, -⟩ := invariant ms
    obtain ⟨c', o, -, turn, -⟩ := turn_of_input hc hin
    cases turn with
    | message serving =>
      have hcount := hr.count
      rw [if_neg (hl.scanned serving)] at hcount
      exact List.countP_pos_iff.1 (by omega)
  case replies =>
    intro ms m q hin
    obtain ⟨c, hc, hs, -⟩ := invariant ms
    obtain ⟨c', o, -, turn, events⟩ := turn_of_input hc hin
    cases turn with
    | message serving => exact ⟨_, _, _, events, _, by rw [RealController.status, hs.root]⟩
  case fifo =>
    intro ms
    obtain ⟨c, -, -, -, -, -, hf⟩ := invariant ms
    exact hf.fifo
  case waits =>
    intro ms
    obtain ⟨c, -, -, -, -, -, hf⟩ := invariant ms
    exact hf.whole
  case closing =>
    intro ms m hin
    obtain ⟨c, hc, -⟩ := invariant ms
    obtain ⟨c', o, hc', turn, events⟩ := turn_of_input hc hin
    cases turn with
    | queueEnded serving => exact ⟨events, by rw [after_concat, hc']; exact serving⟩
  case ended =>
    intro ms more he
    obtain ⟨c, hc, -⟩ := invariant ms
    obtain ⟨hc', hnone⟩ := run_ended hc (by simpa [hc, Controller.phase] using he) more
    rw [past_append, after_append, hc', hc, History.events_append, hnone, List.append_nil]
    exact ⟨rfl, rfl⟩
  case oneScan =>
    intro ms
    obtain ⟨c, -, hs, -⟩ := invariant ms
    exact hs.oneScan.atMost

end Scene

end SearchRelay
