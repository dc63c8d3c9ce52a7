import SearchRelay.Proofs.Controller.Accounting
import SearchRelay.Proofs.Mock.Conduct

/-!
How many scans are complete, as a status tells it. A real controller counts its scans. A mock
controller goes by its state alone, and so it is wrong when it is stopped before all is found.
-/

namespace SearchRelay

def History.feigned (total : Nat) (h : History) : Nat := if h.found < total then 0 else 1

namespace Scene

open MockController

/-- What the statuses of a real and of a mock controller say of scans, from their starts on. -/
structure ScanReports (total : Nat) (real mock : Scene) : Prop where
  counted (ms : List Move) (m : Move) (p : StatusPayload) :
    .status p ∈ (real.moment ms m).output.events → p.scans = (real.past (ms ++ [m])).scans
  unscanned (ms : List Move) (m : Move) (p : StatusPayload) :
    .status p ∈ (real.moment ms m).output.events → (real.past (ms ++ [m])).successes = [] →
      p.scans = 0
  /-- A mock controller tells of a scan that is complete, unless it is stopped too early. -/
  feigned (ms : List Move) (m : Move) (p : StatusPayload) :
    .status p ∈ (mock.moment ms m).output.events →
      (p.scans = (mock.past (ms ++ [m])).feigned total ↔
        ¬ (p.state = .stopped ∧ (mock.past (ms ++ [m])).found < total))
  early (ms : List Move) (m : Move) (p : StatusPayload) :
    .status p ∈ (mock.moment ms m).output.events → p.state = .stopped →
      (mock.past (ms ++ [m])).found < total → p.scans = 1

theorem Ledger.scans_told {h : History} {s s' : Scene} {c c' : RealController} {x : Moment}
    (l : Ledger h c) (p : Passage s c x s' c') {q : StatusPayload}
    (hq : .status q ∈ x.output.events) : q.scans = History.scans (h ++ [x]) := by
  rw [← (l.passage p).scans]
  cases p with
  | turn turn took events => exact (turn.status_eq (events ▸ hq)).2
  | aside same took output =>
    rw [output] at hq
    cases hq

section

variable {root : Path} {total : Nat} {h : History} {s : Scene} {c c' : MockController}
  {x : Moment}

theorem scans_of_stride (f : Feigning root total c) (hs : c.scanned = h.found)
    (p : Stride s c x c') {q : StatusPayload} (hq : .status q ∈ x.output.events) :
    q.scans = if q.state = .stopped then 1 else History.feigned total (h ++ [x]) := by
  have hfound := found_of_stride hs p
  cases p with
  | aside same took output =>
    rw [output] at hq
    cases hq
  | turn turn took events =>
    obtain ⟨heq, hstate⟩ := turn.status_eq (events ▸ hq)
    have hscans : q.scans = if q.state = .indexing then 0 else 1 :=
      congrArg StatusPayload.scans (ControllerEvent.status.inj heq)
    rcases hstate with hstopped | hstate
    · simp [hscans, hstopped]
    · rw [state_eq, turn.keeps.2, f.total, hfound] at hstate
      rw [hscans, hstate, stateAt, History.feigned]
      split <;> rfl

end

theorem reports_scans (root : Path) (masks : List String) (period : Option Nat)
    (interval total : Nat) (around : Surroundings) (room : total ≤ maxFiles) :
    ScanReports total (realOpening root masks period around)
      (mockOpening root interval total around) := by
  have ledger := @run_ledger root masks period around
  have pace := run_pace root interval around room
  generalize realOpening root masks period around = real at ledger
  generalize mockOpening root interval total around = mock at pace
  have told (ms : List Move) (m : Move) (p : StatusPayload)
      (hp : .status p ∈ (real.moment ms m).output.events) :
      p.scans = (real.past (ms ++ [m])).scans := by
    obtain ⟨c, hc, -, hl⟩ := ledger ms
    obtain ⟨c', -, passage⟩ := move_passage hc m
    rw [past_concat]
    exact hl.scans_told passage hp
  have shown (ms : List Move) (m : Move) (p : StatusPayload)
      (hp : .status p ∈ (mock.moment ms m).output.events) :
      p.scans = if p.state = .stopped then 1 else (mock.past (ms ++ [m])).feigned total := by
    obtain ⟨c, hc, hf, hk⟩ := pace ms
    obtain ⟨c', -, stride⟩ := move_stride hc hf.phase (hf.total ▸ room) m
    rw [past_concat]
    exact scans_of_stride hf hk.scanned stride hp
  constructor
  case counted => exact told
  case unscanned =>
    intro ms m p hp hnone
    rw [told ms m p hp, History.scans, hnone]
    rfl
  case feigned =>
    intro ms m p hp
    rw [shown ms m p hp, History.feigned]
    by_cases hstopped : p.state = .stopped
    · by_cases hshort : (mock.past (ms ++ [m])).found < total <;> simp [hstopped, hshort]
    · simp [hstopped]
  case early =>
    intro ms m p hp hstopped _
    rw [shown ms m p hp, if_pos hstopped]

theorem reports_scans_ten : 10 ≤ maxFiles ∧
    ScanReports 10 (realOpening "data" [] none { files := .empty })
      (mockOpening "data" 250 10 { files := .empty }) :=
  ⟨by decide, reports_scans "data" [] none 250 10 { files := .empty } (by decide)⟩

/-- One file of ten is found before the stop. -/
theorem early_stop_reports_scan :
    ¬ ∀ p, .status p ∈ ((mockOpening "data" 250 10 { files := .empty }).moment
        [.begin, .tick, .requestStop] .heedStop).output.events →
      p.scans = ((mockOpening "data" 250 10 { files := .empty }).past
        [.begin, .tick, .requestStop, .heedStop]).feigned 10 := by
  intro h
  exact absurd (h _ (List.mem_singleton_self _)) (by decide)

end Scene

end SearchRelay
