import Mathlib.Data.List.Chain
import SearchRelay.Proofs.Controller.Scene
import SearchRelay.Proofs.Mock.Turn

namespace SearchRelay

def ControllerEvent.progress? : ControllerEvent → Option Progress
  | progress p => some p
  | _ => none

def ControllerEvent.isStopped : ControllerEvent → Bool
  | status s => s.state = .stopped
  | _ => false

namespace History

def progresses (h : History) : List Progress := h.events.filterMap ControllerEvent.progress?

def counts (h : History) : List Nat := h.progresses.map Progress.scanned

def found (h : History) : Nat := h.counts.getLast?.getD 0

variable (h : History) (x : Moment)

theorem progresses_concat : progresses (h ++ [x]) =
    h.progresses ++ x.output.events.filterMap ControllerEvent.progress? := by
  rw [progresses, events_concat, List.filterMap_append, progresses]

theorem counts_concat : counts (h ++ [x]) =
    h.counts ++ (x.output.events.filterMap ControllerEvent.progress?).map Progress.scanned := by
  rw [counts, progresses_concat, List.map_append, counts]

variable {x}

theorem found_concat_of_none (hx : x.output.events.filterMap ControllerEvent.progress? = []) :
    found (h ++ [x]) = h.found := by
  rw [found, counts_concat, hx, List.map_nil, List.append_nil, found]

theorem found_concat_of_one {p : Progress}
    (hx : x.output.events.filterMap ControllerEvent.progress? = [p]) :
    found (h ++ [x]) = p.scanned := by
  rw [found, counts_concat, hx, List.map_singleton, List.getLast?_concat, Option.getD_some]

end History

namespace MockController

def Pretends (root : Path) (state : ControllerState) (files : Nat) (e : ControllerEvent) : Prop :=
  ∃ scans now, e = .status ⟨state, root, files, scans, true, now⟩

/-- What clients hear when a run that has found so many files takes an input. -/
inductive Heard (root : Path) (total found : Nat) :
    Option ControllerInput → List ControllerEvent → Prop
  | nothing : Heard root total found none []
  | queueEnded : Heard root total found (some .queueEnded) []
  | start {e : ControllerEvent} (he : Pretends root (stateAt total found) found e) :
      Heard root total found (some .start) [e]
  | message (q : QueueMessage) {e : ControllerEvent}
      (he : Pretends root (stateAt total found) found e) :
      Heard root total found (some (.message q)) [e]
  | tick (short : found < total) (draw : Nat) {step : Nat}
      (drawn : step = draw % longest total + 1) {es : List ControllerEvent}
      (hes : if found + step < total then es = []
        else ∃ e, es = [e] ∧ Pretends root .ready total e) :
      Heard root total found (some (.tick draw))
        (.progress ⟨min (found + step) total, total⟩ :: es)
  | stop {e : ControllerEvent} (he : Pretends root .stopped found e) :
      Heard root total found (some .stop) [e]

namespace Heard

variable {root : Path} {total found : Nat} {input : Option ControllerInput}
  {es : List ControllerEvent}

/-- A progress tells of more files than before, but not of many more, and never of too many. -/
theorem progresses (h : Heard root total found input es) :
    es.filterMap ControllerEvent.progress? = [] ∨
      ∃ n, es.filterMap ControllerEvent.progress? = [⟨n, total⟩] ∧ found < n ∧
        n ≤ found + longest total ∧ n ≤ total := by
  cases h with
  | nothing | queueEnded => exact .inl rfl
  | start he | message q he | stop he =>
    obtain ⟨scans, now, rfl⟩ := he
    exact .inl rfl
  | @tick short draw step drawn es hes =>
    have hstep : draw % longest total < longest total := Nat.mod_lt _ (longest_pos total)
    refine .inr ⟨min (found + step) total, ?_, by omega, by omega, by omega⟩
    split at hes
    · subst hes
      rfl
    · obtain ⟨e, rfl, scans, now, rfl⟩ := hes
      rfl

theorem completion (h : Heard root total found input es) {p : Progress}
    (hp : .progress p ∈ es) (htotal : p.scanned = total) :
    ∃ e, es = [.progress ⟨total, total⟩, e] ∧ Pretends root .ready total e := by
  cases h with
  | nothing | queueEnded => cases hp
  | start he | message q he | stop he =>
    obtain ⟨scans, now, rfl⟩ := he
    simp at hp
  | @tick short draw step drawn es hes =>
    split at hes
    · subst hes
      obtain rfl : p = ⟨min (found + step) total, total⟩ := by simpa using hp
      simp only at htotal
      omega
    · obtain ⟨e, rfl, he⟩ := hes
      rw [Nat.min_eq_right (by omega)]
      exact ⟨e, rfl, he⟩

end Heard

/-- How the count of files has risen so far. -/
structure Climb (total : Nat) (h : History) : Prop where
  totals : ∀ p ∈ h.progresses, p.total = total ∧ p.scanned ≤ total
  within : h.found ≤ total
  rises : (0 :: h.counts).IsChain fun a b => a < b ∧ b ≤ a + longest total
  fewest : h.counts.length ≤ h.found
  most : h.found ≤ longest total * h.counts.length

namespace Climb

variable {total : Nat} {h : History} {x : Moment}

theorem nil (total : Nat) : Climb total [] where
  totals := fun _ hp => nomatch hp
  within := Nat.zero_le total
  rises := .singleton 0
  fewest := Nat.le_refl 0
  most := Nat.le_refl 0

theorem still (k : Climb total h) (hx : x.output.events.filterMap ControllerEvent.progress? = []) :
    Climb total (h ++ [x]) := by
  have hp : History.progresses (h ++ [x]) = h.progresses := by
    rw [History.progresses_concat, hx, List.append_nil]
  have hc : History.counts (h ++ [x]) = h.counts := by rw [History.counts, hp, History.counts]
  have hf := h.found_concat_of_none hx
  exact ⟨hp ▸ k.totals, hf ▸ k.within, hc ▸ k.rises, by rw [hc, hf]; exact k.fewest,
    by rw [hc, hf]; exact k.most⟩

theorem rise (k : Climb total h) {n : Nat}
    (hx : x.output.events.filterMap ControllerEvent.progress? = [⟨n, total⟩])
    (more : h.found < n) (reach : n ≤ h.found + longest total) (within : n ≤ total) :
    Climb total (h ++ [x]) := by
  have hp : History.progresses (h ++ [x]) = h.progresses ++ [⟨n, total⟩] := by
    rw [History.progresses_concat, hx]
  have hc : History.counts (h ++ [x]) = h.counts ++ [n] := by
    rw [History.counts, hp, List.map_append, History.counts]
    rfl
  have hf : History.found (h ++ [x]) = n := h.found_concat_of_one hx
  refine ⟨?totals, hf ▸ within, ?rises, ?fewest, ?most⟩
  case totals =>
    rw [hp]
    exact List.forall_mem_append.2 ⟨k.totals, List.forall_mem_singleton.2 ⟨rfl, within⟩⟩
  case rises =>
    -- The last of the counts, with the zero before them, is how many files were found.
    rw [hc, ← List.cons_append]
    refine k.rises.append (.singleton n) ?_
    rw [List.getLast?_cons]
    rintro _ ⟨⟩ _ ⟨⟩
    exact ⟨more, reach⟩
  case fewest =>
    have := k.fewest
    rw [hc, hf, List.length_append, List.length_singleton]
    omega
  case most =>
    have := k.most
    rw [hc, hf, List.length_append, List.length_singleton, Nat.mul_succ]
    omega

theorem heard {root : Path} {input : Option ControllerInput} (k : Climb total h)
    (hx : Heard root total h.found input x.output.events) : Climb total (h ++ [x]) := by
  rcases hx.progresses with hnone | ⟨n, hone, more, reach, within⟩
  · exact k.still hnone
  · exact k.rise hone more reach within

theorem few (k : Climb total h) (hsmall : total ≤ 19) (hfound : h.found = total) :
    h.counts.length = total := by
  have hone : longest total = 1 := by
    rw [longest]
    omega
  have hmost := k.most
  have hfewest := k.fewest
  rw [hone] at hmost
  omega

/-- A step finds no more than a tenth of many files. -/
theorem many (k : Climb total h) (hlarge : 10 ≤ total) (hfound : h.found = total) :
    10 ≤ h.counts.length := by
  have htenth : longest total * 10 ≤ total := by
    rw [longest]
    omega
  have hmost : longest total * 10 ≤ longest total * h.counts.length :=
    htenth.trans (hfound ▸ k.most)
  exact Nat.le_of_mul_le_mul_left hmost (longest_pos total)

end Climb

/-- What clients have heard when a run that has found so many files is in some phase. -/
inductive Story (root : Path) (total found : Nat) : RunPhase → List ControllerEvent → Prop
  | idle (none : found = 0) : Story root total found .idle []
  | serving {first : ControllerEvent} {es : List ControllerEvent}
      (hfirst : Pretends root (stateAt total 0) 0 first)
      (hes : ∀ e ∈ first :: es, e.isStopped = false) : Story root total found .serving (first :: es)
  | ended {first last : ControllerEvent} {es : List ControllerEvent}
      (hfirst : Pretends root (stateAt total 0) 0 first)
      (hes : ∀ e ∈ first :: es, e.isStopped = false) (hlast : Pretends root .stopped found last) :
      Story root total found (.ended (.ok ())) (first :: es ++ [last])

section

variable {root : Path} {total : Nat} {now : Timestamp} {c c' : MockController}
  {input : ControllerInput} {o : ControllerOutput}

theorem pretends_status (c : MockController) (now : Timestamp) (state : ControllerState) :
    Pretends c.root state c.scanned (c.status now state) := ⟨_, now, rfl⟩

theorem pretends_state (c : MockController) (now : Timestamp) :
    Pretends c.root (stateAt c.total c.scanned) c.scanned (c.status now c.state) := by
  rw [← state_eq]
  exact c.pretends_status now c.state

theorem not_stopped (c : MockController) (now : Timestamp) :
    (c.status now c.state).isStopped = false := by
  simp only [status, state]
  split <;> rfl

theorem Turn.heard (t : Turn now c input c' o) :
    Heard c.root c.total c.scanned (some input) o.events := by
  cases t with
  | start idle => exact .start (c.pretends_state now)
  | stop serving => exact .stop (c.pretends_status now .stopped)
  | message serving listens m => exact .message m (c.pretends_state now)
  | queueEnded serving listens => exact .queueEnded
  | advanced serving draw short =>
    have hless : c.scanned < c.total := by omega
    have htick : Heard c.root c.total c.scanned (some (.tick draw)) [_] :=
      .tick hless draw (c.stepOf_eq draw) (by rw [if_pos short])
    rwa [Nat.min_eq_left (Nat.le_of_lt short)] at htick
  | completed serving short draw reached =>
    have hready := pretends_status { c with scanned := c.total } now .ready
    have htick := Heard.tick short draw (c.stepOf_eq draw)
      (by rw [if_neg (by omega)]; exact ⟨_, rfl, hready⟩)
    rwa [Nat.min_eq_right reached] at htick

theorem Turn.found (t : Turn now c input c' o) {h : History} {x : Moment}
    (hc : c.scanned = h.found) (events : x.output.events = o.events) :
    c'.scanned = History.found (h ++ [x]) := by
  cases t with
  | start | stop | message | queueEnded =>
    rw [h.found_concat_of_none (by rw [events]; rfl)]
    exact hc
  | advanced | completed => rw [h.found_concat_of_one (by rw [events]; rfl)]

theorem Story.go_on {found found' : Nat} {es new : List ControllerEvent}
    (st : Story root total found .serving es) (hnew : ∀ e ∈ new, e.isStopped = false) :
    Story root total found' .serving (es ++ new) := by
  cases st with
  | serving hfirst hes => exact .serving hfirst (List.forall_mem_append.2 ⟨hes, hnew⟩)

theorem Story.turn {es : List ControllerEvent} (st : Story c.root c.total c.scanned c.phase es)
    (t : Turn now c input c' o) : Story c.root c.total c'.scanned c'.phase (es ++ o.events) := by
  cases t with
  | start idle =>
    rw [idle] at st
    cases st with
    | idle none =>
      have hfirst := c.pretends_state now
      rw [none] at hfirst
      exact .serving hfirst (List.forall_mem_singleton.2 (c.not_stopped now))
  | stop serving =>
    rw [serving] at st
    cases st with
    | serving hfirst hes => exact .ended hfirst hes (c.pretends_status now .stopped)
  | message serving listens m =>
    rw [serving] at st ⊢
    exact st.go_on (List.forall_mem_singleton.2 (c.not_stopped now))
  | queueEnded serving listens =>
    rw [serving] at st
    exact serving ▸ st.go_on (List.forall_mem_nil _)
  | advanced serving draw short =>
    rw [serving] at st
    exact serving ▸ st.go_on (List.forall_mem_singleton.2 rfl)
  | completed serving short draw reached =>
    rw [serving] at st
    exact serving ▸ st.go_on (List.forall_mem_cons.2 ⟨rfl, List.forall_mem_singleton.2 rfl⟩)

theorem Story.idle_iff {found : Nat} {phase : RunPhase} {es : List ControllerEvent}
    (st : Story root total found phase es) : phase = .idle ↔ es = [] := by
  cases st <;> simp

theorem Story.opening {found : Nat} {phase : RunPhase} {es : List ControllerEvent}
    {e : ControllerEvent} (st : Story root total found phase es) (he : es.head? = some e) :
    Pretends root (stateAt total 0) 0 e := by
  cases st with
  | idle => cases he
  | serving hfirst | ended hfirst =>
    obtain rfl := Option.some.inj he
    exact hfirst

theorem Story.running {found : Nat} {phase : RunPhase} {es : List ControllerEvent}
    (st : Story root total found phase es) (hp : phase.isEnded = false) :
    ∀ e ∈ es, e.isStopped = false := by
  cases st with
  | idle => exact List.forall_mem_nil _
  | serving hfirst hes => exact hes
  | ended => cases hp

theorem Story.closing {found : Nat} {r : Except ControllerError Unit} {es : List ControllerEvent}
    (st : Story root total found (.ended r) es) : r = .ok () ∧ ∃ before last,
      es = before ++ [last] ∧ Pretends root .stopped found last ∧
        ∀ e ∈ before, e.isStopped = false := by
  cases st with
  | ended hfirst hes hlast => exact ⟨rfl, _, _, rfl, hlast, hes⟩

theorem Turn.settled (t : Turn now c input c' o) (hs : c.scanned = c.total) :
    c'.scanned = c'.total ∧ o.events.filterMap ControllerEvent.progress? = [] := by
  cases t with
  | start | stop | message | queueEnded => exact ⟨hs, rfl⟩
  | advanced serving draw short => omega
  | completed serving short => omega

theorem Turn.replies (t : Turn now c input c' o) (hs : c.scanned = c.total)
    (hi : c.phase ≠ .idle) : c'.phase ≠ .idle ∧
      o.events.countP ControllerEvent.isReady =
        (Moment.message? { input := some input }).toList.length := by
  cases t with
  | start idle => exact absurd idle hi
  | stop serving => exact ⟨by simp, rfl⟩
  | message serving listens m =>
    have hready : c.state = .ready := by simp [state, isComplete, hs]
    rw [hready]
    exact ⟨hi, rfl⟩
  | queueEnded serving listens => exact ⟨hi, rfl⟩
  | advanced serving draw short => omega
  | completed serving short => omega

end

end MockController

end SearchRelay
