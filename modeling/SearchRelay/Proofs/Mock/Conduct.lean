import Mathlib.Algebra.Order.Floor.Div
import SearchRelay.Proofs.Controller.Lasting
import SearchRelay.Proofs.Mock.Climb
import SearchRelay.Proofs.Mock.Passage

namespace SearchRelay.Scene

open MockController

structure Pace (root : Path) (total : Nat) (h : History) (s : Scene) (c : MockController) :
    Prop where
  scanned : c.scanned = h.found
  climb : Climb total h
  story : Story root total h.found c.phase h.events
  asked : c.phase.isEnded → s.task.stopRequested
  clocked : c.phase = .serving → s.task.ticker.isSome

section

variable {root : Path} {total : Nat} {h : History} {s : Scene} {c c' : MockController}
  {x : Moment}

theorem heard_of_stride (f : Feigning root total c) (hs : c.scanned = h.found)
    (p : Stride s c x c') : Heard root total h.found x.input x.output.events := by
  cases p with
  | turn turn took events =>
    rw [took, events, ← f.root, ← f.total, ← hs]
    exact turn.heard
  | aside same took output =>
    rw [took, output]
    exact .nothing

theorem found_of_stride (hs : c.scanned = h.found) (p : Stride s c x c') :
    c'.scanned = History.found (h ++ [x]) := by
  cases p with
  | turn turn took events => exact turn.found hs events
  | aside same took output =>
    rw [same, hs, h.found_concat_of_none (by rw [output]; rfl)]

theorem story_of_stride (f : Feigning root total c) (hs : c.scanned = h.found)
    (st : Story root total h.found c.phase h.events) (p : Stride s c x c') :
    Story root total (History.found (h ++ [x])) c'.phase (History.events (h ++ [x])) := by
  rw [← found_of_stride hs p, History.events_concat]
  rw [← hs] at st
  cases p with
  | turn turn took events =>
    rw [← f.root, ← f.total] at st ⊢
    rw [events]
    exact st.turn turn
  | aside same took output =>
    rw [same, output, List.append_nil]
    exact st

theorem asked_of_stride (ha : c.phase.isEnded → s.task.stopRequested) (p : Stride s c x c')
    (he : c'.phase.isEnded) : s.task.stopRequested := by
  cases p with
  | aside same => exact ha (same ▸ he)
  | turn turn took events asked =>
    cases turn with
    | stop => exact asked rfl
    | start => exact nomatch he
    | message | queueEnded | advanced | completed => exact ha he

theorem Pace.move {m : Move} (k : Pace root total h s c) (hc : s.task.controller = .mock c)
    (f : Feigning root total c) (hc' : (s.move m).1.task.controller = .mock c')
    (p : Stride s c (s.move m).2 c') : Pace root total (h ++ [(s.move m).2]) (s.move m).1 c' where
  scanned := found_of_stride k.scanned p
  climb := k.climb.heard (heard_of_stride f k.scanned p)
  story := story_of_stride f k.scanned k.story p
  asked he := (s.move_lasting m).stop (asked_of_stride k.asked p he)
  clocked := ticker_of_move hc k.clocked m hc'

theorem pace_nil (root : Path) (interval total : Nat) (s : Scene) :
    Pace root total [] s (.ofSettings root interval total) where
  scanned := rfl
  climb := .nil total
  story := .idle rfl
  asked he := nomatch he
  clocked hp := nomatch hp

theorem run_pace (root : Path) (interval : Nat) (around : Surroundings) (room : total ≤ maxFiles)
    (ms : List Move) :
    ∃ c, ((mockOpening root interval total around).after ms).task.controller = .mock c ∧
      Feigning root total c ∧ Pace root total ((mockOpening root interval total around).past ms)
        ((mockOpening root interval total around).after ms) c :=
  run_mock_keeps room (fun _ _ _ _ _ hc f hc' p k => k.move hc f hc' p) rfl
    (feigning_ofSettings root interval total) (pace_nil root interval total _) ms

/-- What has come of a run since all was found, when some controller was there. -/
structure Settled (total : Nat) (c : MockController) (h : History) (c' : MockController) :
    Prop where
  full : c'.scanned = total
  quiet : h.progresses = []
  begun : c.phase ≠ .idle → c'.phase ≠ .idle
  replies : c.phase ≠ .idle → h.events.countP ControllerEvent.isReady = h.consumed.length

theorem Settled.stride {c₀ : MockController} (k : Settled total c₀ h c) (f : Feigning root total c)
    (p : Stride s c x c') : Settled total c₀ (h ++ [x]) c' := by
  cases p with
  | turn turn took events =>
    have hs : c.scanned = c.total := k.full.trans f.total.symm
    obtain ⟨hs', hnone⟩ := turn.settled hs
    refine ⟨hs'.trans (turn.keeps.2.trans f.total), ?_, fun hi => ?_, fun hi => ?_⟩
    · rw [History.progresses_concat, k.quiet, events, hnone, List.append_nil]
    · exact (turn.replies hs (k.begun hi)).1
    · rw [History.events_concat, List.countP_append, k.replies hi, events,
        (turn.replies hs (k.begun hi)).2, History.consumed_concat, List.length_append,
        Moment.message?, Moment.message?, took]
  | aside same took output =>
    rw [same]
    refine ⟨k.full, ?_, k.begun, fun hi => ?_⟩
    · rw [History.progresses_concat, k.quiet, output]
      rfl
    · rw [History.events_concat, output, List.append_nil, k.replies hi, History.consumed_concat,
        Moment.message?, took, Option.toList_none, List.append_nil]

theorem run_settled (room : total ≤ maxFiles) (hc : s.task.controller = .mock c)
    (f : Feigning root total c) (full : c.scanned = total) (ms : List Move) :
    ∃ c', Settled total c (s.past ms) c' := by
  obtain ⟨c', -, -, hk⟩ := run_mock_keeps (P := fun h _ c' => Settled total c h c') room
    (fun _ _ _ _ _ _ f _ p k => k.stride f p) hc f ⟨full, rfl, id, fun _ => rfl⟩ ms
  exact ⟨c', hk⟩

theorem move_heedStop (room : total ≤ maxFiles) (hc : s.task.controller = .mock c)
    (f : Feigning root total c) (asked : s.task.stopRequested) (serving : c.phase = .serving) :
    (s.move .heedStop).1.task.controller.phase = .ended (.ok ()) := by
  have running : s.task.controller.phase.isRunning := by
    rw [hc, Controller.phase, serving]
    rfl
  have hi : s.input? .heedStop = some .stop := (Ready.heedStop asked running).input?_eq
  obtain ⟨c', hc', stride⟩ := move_stride hc f.phase (f.total ▸ room) .heedStop
  simp only [move, hi] at hc' stride ⊢
  rw [hc']
  cases stride with
  | turn turn took =>
    obtain rfl := Option.some.inj took
    cases turn with
    | stop => rfl
  | aside same took => cases took

end

/-- What clients hear of a mock controller that has so many files to find, from a start on. -/
structure MockConduct (root : Path) (total : Nat) (start : Scene) : Prop where
  begins : (start.moment [] .begin).input = some .start
  ticks (ms : List Move) : (start.after ms).task.controller.phase = .serving →
    (start.past ms).found < total → ∃ wait, ∀ d, wait ≤ d →
      ∃ draw, (start.moment (ms ++ [.advance d]) .tick).input = some (.tick draw)
  heard (ms : List Move) (m : Move) : Heard root total (start.past ms).found
    (start.moment ms m).input (start.moment ms m).output.events
  opening (ms : List Move) (e : ControllerEvent) : (start.past ms).events.head? = some e →
    Pretends root (stateAt total 0) 0 e
  totals (ms : List Move) : ∀ p ∈ (start.past ms).progresses, p.total = total ∧ p.scanned ≤ total
  increasing (ms : List Move) : (0 :: (start.past ms).counts).Pairwise (· < ·)
  rises (ms : List Move) :
    (0 :: (start.past ms).counts).IsChain fun a b => b ≤ a + longest total
  /-- Every step that is not too long can be drawn. -/
  steps (ms : List Move) (now : Timestamp) : (start.after ms).task.controller.phase = .serving →
    (start.past ms).found < total → ∀ n, 1 ≤ n → n ≤ longest total → ∃ draw,
      ((start.after ms).task.controller.step now (.tick draw)).2.events.head? =
        some (.progress ⟨min ((start.past ms).found + n) total, total⟩)
  once (ms : List Move) : (start.past ms).counts.count total ≤ 1
  /-- The last progress is followed at once by the news that the controller is ready. -/
  completion (ms : List Move) (m : Move) (p : Progress) :
    .progress p ∈ (start.moment ms m).output.events → p.scanned = total →
      ∃ e, (start.moment ms m).output.events = [.progress ⟨total, total⟩, e] ∧
        Pretends root .ready total e
  complete (ms more : List Move) : (start.past ms).found = total →
    ((start.after ms).past more).progresses = [] ∧ ((start.past ms).events ≠ [] →
      ((start.after ms).past more).events.countP ControllerEvent.isReady =
        ((start.after ms).past more).consumed.length)
  counted (ms : List Move) : (start.past ms).found = total →
    total ⌈/⌉ longest total ≤ (start.past ms).counts.length ∧
      (start.past ms).counts.length ≤ total
  few (ms : List Move) : total ≤ 19 → (start.past ms).found = total →
    (start.past ms).counts.length = total
  many (ms : List Move) : 10 ≤ total → (start.past ms).found = total →
    10 ≤ (start.past ms).counts.length
  running (ms : List Move) : (start.after ms).task.controller.phase.isEnded = false →
    ∀ e ∈ (start.past ms).events, e.isStopped = false
  ended (ms : List Move) (r : Except ControllerError Unit) :
    (start.after ms).task.controller.phase = .ended r → r = .ok () ∧ .requestStop ∈ ms ∧
      ∃ es e, (start.past ms).events = es ++ [e] ∧
        Pretends root .stopped (start.past ms).found e ∧ ∀ e' ∈ es, e'.isStopped = false
  silent (ms more : List Move) : (start.after ms).task.controller.phase.isEnded →
    (start.past (ms ++ more)).events = (start.past ms).events
  stops (ms : List Move) : .requestStop ∈ ms →
    (start.after ms).task.controller.phase = .serving →
      (start.after (ms ++ [.heedStop])).task.controller.phase = .ended (.ok ())

/-- Every run of a mock controller keeps to its conduct, whatever chance draws. -/
theorem run_feigns (root : Path) (interval total : Nat) (around : Surroundings)
    (room : total ≤ maxFiles) :
    MockConduct root total (mockOpening root interval total around) := by
  have pace := run_pace root interval around room
  have fresh : (mockOpening root interval total around).task.stopRequested = false := rfl
  have begins : ((mockOpening root interval total around).moment [] .begin).input =
      some .start := rfl
  -- Nothing else about the start is used below: every clause is read off the state at its moment.
  generalize mockOpening root interval total around = start at pace fresh begins
  have heard (ms : List Move) (m : Move) : Heard root total (start.past ms).found
      (start.moment ms m).input (start.moment ms m).output.events := by
    obtain ⟨c, hc, hf, hk⟩ := pace ms
    obtain ⟨c', -, stride⟩ := move_stride hc hf.phase (hf.total ▸ room) m
    exact heard_of_stride hf hk.scanned stride
  have climb (ms : List Move) : Climb total (start.past ms) := by
    obtain ⟨c, -, -, hk⟩ := pace ms
    exact hk.climb
  have increasing (ms : List Move) : (0 :: (start.past ms).counts).Pairwise (· < ·) :=
    ((climb ms).rises.imp fun _ _ h => h.1).pairwise
  have story (ms : List Move) : Story root total (start.past ms).found
      (start.after ms).task.controller.phase (start.past ms).events := by
    obtain ⟨c, hc, -, hk⟩ := pace ms
    rw [hc]
    exact hk.story
  have asked (ms : List Move) : (start.after ms).task.stopRequested ↔ .requestStop ∈ ms := by
    simp [after_stopRequested, fresh]
  constructor
  case begins => exact begins
  case ticks =>
    intro ms hserving hshort
    obtain ⟨c, hc, hf, hk⟩ := pace ms
    have hp : c.phase = .serving := by rwa [hc] at hserving
    have wanted : c.wantsTick :=
      wantsTick_iff.2 ⟨hp, by rw [hk.scanned, hf.total]; exact hshort⟩
    obtain ⟨k, hticker⟩ := Option.isSome_iff_exists.1 (hk.clocked hp)
    refine ⟨k.due, fun d hd => ?_⟩
    have tick := input?_tick (by rw [hc]; exact wanted) hticker hd
    rw [moment_append, moment, move_input]
    exact ⟨_, tick⟩
  case heard => exact heard
  case opening => exact fun ms e he => (story ms).opening he
  case totals => exact fun ms => (climb ms).totals
  case increasing => exact increasing
  case rises => exact fun ms => (climb ms).rises.imp fun _ _ h => h.2
  case steps =>
    intro ms now hserving hshort n hpos hn
    obtain ⟨c, hc, hf, hk⟩ := pace ms
    have hp : c.phase = .serving := by rwa [hc] at hserving
    have hfound : (start.past ms).found = c.scanned := hk.scanned.symm
    have wanted : c.wantsTick :=
      wantsTick_iff.2 ⟨hp, by rw [hf.total, hk.scanned]; exact hshort⟩
    obtain ⟨draw, hdraw⟩ := c.exists_draw hpos (hf.total.symm ▸ hn)
    have turn := turn_of_awaits now (hf.total ▸ room) (show c.Awaits (.tick draw) from wanted)
    refine ⟨draw, ?_⟩
    rw [hc, hfound, ← hdraw, ← hf.total]
    change (c.step now (.tick draw)).2.events.head? = _
    generalize c.step now (.tick draw) = out at turn ⊢
    obtain ⟨c', o⟩ := out
    cases turn with
    | advanced serving draw short => rw [Nat.min_eq_left (Nat.le_of_lt short)]; rfl
    | completed serving short draw reached => rw [Nat.min_eq_right reached]; rfl
  case once =>
    intro ms
    exact List.nodup_iff_count_le_one.1 ((increasing ms).of_cons.imp Nat.ne_of_lt) total
  case completion =>
    intro ms m p hp htotal
    exact (heard ms m).completion hp htotal
  case complete =>
    intro ms more hfound
    obtain ⟨c, hc, hf, hk⟩ := pace ms
    obtain ⟨c', settled⟩ := run_settled room hc hf (hk.scanned.trans hfound) more
    exact ⟨settled.quiet, fun hne => settled.replies fun hi => hne (hk.story.idle_iff.1 hi)⟩
  case counted =>
    intro ms hfound
    exact ⟨(ceilDiv_le_iff_le_mul (longest_pos total)).2 (hfound ▸ (climb ms).most),
      hfound ▸ (climb ms).fewest⟩
  case few =>
    intro ms hsmall hfound
    exact (climb ms).few hsmall hfound
  case many =>
    intro ms hlarge hfound
    exact (climb ms).many hlarge hfound
  case running =>
    intro ms hrun e he
    exact (story ms).running hrun e he
  case ended =>
    intro ms r hr
    obtain ⟨c, hc, -, hk⟩ := pace ms
    have hphase : c.phase = .ended r := by rwa [hc] at hr
    obtain ⟨hok, hlast⟩ := (hr ▸ story ms).closing
    exact ⟨hok, (asked ms).1 (hk.asked (by rw [hphase]; rfl)), hlast⟩
  case silent =>
    intro ms more he
    rw [past_append, History.events_append, (run_of_ended he more).2, List.append_nil]
  case stops =>
    intro ms hasked hserving
    obtain ⟨c, hc, hf, -⟩ := pace ms
    rw [after_concat]
    exact move_heedStop room hc hf ((asked ms).2 hasked) (by rwa [hc] at hserving)

/-- As many files as can be counted. -/
theorem run_feigns_full : maxFiles ≤ maxFiles ∧
    MockConduct "data" maxFiles (mockOpening "data" 250 maxFiles { files := .empty }) :=
  ⟨Nat.le_refl maxFiles,
    run_feigns "data" 250 maxFiles { files := .empty } (Nat.le_refl maxFiles)⟩

/-- The first step comes at once, the others take their time, and after the third there is none. -/
example : ((mockOpening "data" 5 3 { files := .empty }).past [.begin, .tick, .tick, .advance 5,
    .tick, .advance 5, .tick, .advance 5, .tick]).counts = [1, 2, 3] := rfl

end SearchRelay.Scene
