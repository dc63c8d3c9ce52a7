import Mathlib.Data.List.Induction
import SearchRelay.Controller.Rehearsal
import SearchRelay.Proofs.Controller.Contest
import SearchRelay.Proofs.Lifetime.Start

namespace SearchRelay.Contest

variable {k : Contest}

theorem act_requestStop (k : Contest) : (k.act (.move .requestStop)).scene.task.stopRequested ∧
    (k.act (.move .requestStop)).answers = k.answers ++ [!k.scene.task.stopRequested] :=
  ⟨rfl, rfl⟩

theorem act_other (k : Contest) {a : Action} (ha : a.isRequestStop = false) :
    (k.act a).scene.task.stopRequested = k.scene.task.stopRequested ∧
      (k.act a).answers = k.answers := by
  cases hcaller : a.caller? with
  | some i =>
    obtain ⟨hscene, -, hanswers⟩ := k.act_call hcaller
    exact ⟨by rw [hscene], hanswers⟩
  | none =>
    cases a with
    | move m =>
      have hm : m.isRequestStop = false := ha
      have hne : .requestStop ≠ m := by
        rintro rfl
        cases hm
      have hasked := k.scene.move_stopRequested m
      simp only [act]
      split
      · exact ⟨Bool.eq_iff_iff.2 (hasked.trans (or_iff_left hne)), by simp [answer, hm]⟩
      · exact ⟨rfl, rfl⟩
    | _ => cases hcaller

def Told (k : Contest) : Prop :=
  if k.scene.task.stopRequested then ∃ n, k.answers = true :: List.replicate n false
  else k.answers = []

theorem Told.act (h : Told k) (a : Action) : Told (k.act a) := by
  cases ha : a.isRequestStop with
  | false =>
    obtain ⟨hasked, hanswers⟩ := k.act_other ha
    rw [Told, hasked, hanswers]
    exact h
  | true =>
    obtain rfl := Action.eq_of_isRequestStop ha
    obtain ⟨hasked, hanswers⟩ := k.act_requestStop
    rw [Told, if_pos hasked, hanswers]
    rw [Told] at h
    split at h
    · rename_i hbefore
      obtain ⟨n, hn⟩ := h
      exact ⟨n + 1, by rw [hn, hbefore, List.replicate_succ', List.cons_append]; rfl⟩
    · rename_i hbefore
      exact ⟨0, by simp [h, hbefore]⟩

theorem after_answers (k : Contest) (actions : List Action) :
    (k.after actions).answers.length =
      k.answers.length + actions.countP Action.isRequestStop := by
  induction actions generalizing k with
  | nil => rfl
  | cons a actions ih =>
    have hrest : (k.after (a :: actions)).answers.length =
        (k.act a).answers.length + actions.countP Action.isRequestStop := ih (k.act a)
    cases ha : a.isRequestStop with
    | false => rw [hrest, (k.act_other ha).2, List.countP_cons_of_neg (by simp [ha])]
    | true =>
      obtain rfl := Action.eq_of_isRequestStop ha
      rw [hrest, k.act_requestStop.2, List.countP_cons_of_pos ha, List.length_append]
      simp only [List.length_singleton]
      omega

theorem after_scene (controller : Controller) (around : Surroundings) (actions : List Action) :
    ((opening controller around).after actions).scene =
      (Scene.opening controller around).after ((opening controller around).after actions).moves := by
  refine after_keeps (P := fun k => k.scene = (Scene.opening controller around).after k.moves)
    ?_ rfl actions
  intro k a h
  cases hcaller : a.caller? with
  | some i =>
    obtain ⟨hscene, hmoves, -⟩ := k.act_call hcaller
    rw [hscene, hmoves, h]
  | none =>
    cases a with
    | move m =>
      simp only [act]
      split
      · rw [Scene.after_concat, ← h]
      · exact h
    | _ => cases hcaller

theorem idle_waits {c : Controller} (h : c.phase = .idle) :
    c.isScanning = false ∧ c.wantsMessage = false ∧ c.wantsTick = false := by
  cases c with
  | real c =>
    have hp : c.phase = .idle := h
    simp [Controller.isScanning, Controller.wantsMessage, Controller.wantsTick,
      RealController.isScanning, RealController.wantsMessage, RealController.wantsTick, hp]
  | mock c =>
    have hp : c.phase = .idle := h
    simp [Controller.isScanning, Controller.wantsMessage, Controller.wantsTick,
      MockController.wantsMessage, MockController.wantsTick, MockController.isServing, hp]

theorem input?_of_idle {s : Scene} (h : s.task.controller.phase = .idle) {m : Move}
    (hm : m.isBegin = false) : s.input? m = none := by
  obtain ⟨hscan, hmessage, htick⟩ := idle_waits h
  refine Option.eq_none_iff_forall_ne_some.2 fun input hi => ?_
  cases Scene.ready_of_input? hi with
  | begin => cases hm
  | heedStop asked running => simp [h, RunPhase.isRunning] at running
  | endScan inFlight scanning => simp [hscan] at scanning
  | serveQueue wants | noticeEnd wants => simp [hmessage] at wants
  | tick due => simp [ControllerTask.isTickDue, htick] at due

/-- Before somebody has the queue, the run has no part in anything. -/
structure Early (controller : Controller) (around : Surroundings) (k : Contest) : Prop where
  idle : k.scene.task.controller.phase = .idle
  nothing : ∀ x ∈ (Scene.opening controller around).past k.moves, x.input = none ∧ x.output = {}

theorem after_early (controller : Controller) (idle : controller.phase = .idle)
    (around : Surroundings) (actions : List Action)
    (untaken : ((opening controller around).after actions).untaken) :
    Early controller around ((opening controller around).after actions) := by
  induction actions using List.reverseRecOn with
  | nil => exact ⟨idle, by simp [opening, after, Scene.past, Scene.run]⟩
  | append_singleton actions a ih =>
    rw [after_concat] at untaken ⊢
    have scene := after_scene controller around actions
    generalize (opening controller around).after actions = k at *
    have early := ih (act_untaken untaken)
    -- A caller has no part in the scene, and the run does not begin while nobody has the queue.
    cases hcaller : a.caller? with
    | some i =>
      obtain ⟨hscene, hmoves, -⟩ := k.act_call hcaller
      exact ⟨hscene ▸ early.idle, hmoves ▸ early.nothing⟩
    | none =>
      cases a with
      | move m =>
        simp only [act]
        split
        · rename_i hm
          have hbegin : m.isBegin = false := by simpa [permits, act_untaken untaken] using hm
          have hinput := input?_of_idle early.idle hbegin
          have haside :
              k.scene.move m = ((k.scene.aside m).1, { accepted := (k.scene.aside m).2 }) := by
            simp only [Scene.move, hinput]
          refine ⟨?_, fun x hx => ?_⟩
          · rw [haside, (k.scene.aside_keeps m).1]
            exact early.idle
          · rw [Scene.past_concat, Scene.moment, ← scene, haside] at hx
            rcases List.mem_append.1 hx with hx | hx
            · exact early.nothing x hx
            · obtain rfl := List.mem_singleton.1 hx
              exact ⟨rfl, rfl⟩
        · exact early
      | _ => cases hcaller

theorem after_receiver {controller : Controller} (idle : controller.phase = .idle)
    (around : Surroundings) (ms : List Move) :
    ((Scene.opening controller around).after ms).around.queue.receiver =
      (around.queue.receiver &&
        !((Scene.opening controller around).after ms).task.controller.phase.isEnded) := by
  refine Scene.run_keeps (P := fun _ s => s.around.queue.receiver =
    (around.queue.receiver && !s.task.controller.phase.isEnded)) (h := []) ?_ ?_ ms
  · intro past s m h
    cases s.queueTurn m with
    | served q took p answer none waiting receiver same => rw [receiver, same, h]
    | ends unserved none waiting receiver running ended => rw [receiver, ended]; simp
    | kept unserved waiting shut receiver phase => rw [receiver, phase, h]
  · have hidle : (Scene.opening controller around).task.controller.phase = .idle := idle
    rw [hidle]
    simp [Scene.opening, RunPhase.isEnded]

/-- Whoever waits finds out in three steps at most, in which nobody does anything but to look. -/
theorem decides {i : Nat} (waiting : k.callers i = some .waiting) :
    ∃ more : List Action, more.length ≤ 3 ∧ (∀ a ∈ more, a.caller?.isSome) ∧
      i ∈ (k.after more).looked := by
  cases hholder : k.holder with
  | none => exact ⟨[.lock i, .look i], by simp, by simp [Action.caller?], by
      simp [after, act, hholder, waiting]⟩
  | some j =>
    by_cases hj : j = i
    · subst hj
      exact ⟨[.look j], by simp, by simp [Action.caller?], by simp [after, act, hholder]⟩
    · exact ⟨[.look j, .lock i, .look i], by simp, by simp [Action.caller?], by
        simp [after, act, hholder, waiting, Ne.symm hj]⟩

/-- A controller runs once, whoever calls it and when. -/
structure Exclusive (start : Contest) : Prop where
  /-- Whoever is the first to look runs, and all who look later are refused. -/
  order (actions : List Action) : Order (start.after actions)
  result (actions : List Action) (i : Nat) : (start.after actions).looked.head? = some i →
    (start.after actions).result? i = (start.after actions).scene.task.result?
  refusal (actions : List Action) (i : Nat) : i ∈ (start.after actions).looked.tail →
    ∃ e, (start.after actions).result? i = some (.error e) ∧
      Rehearsal.runAgain ⟨.running (start.after actions).scene.task,
        (start.after actions).scene.around⟩ = .ok e
  decides (actions : List Action) (i : Nat) : (start.after actions).callers i = some .waiting →
    ∃ more : List Action, more.length ≤ 3 ∧ (∀ a ∈ more, a.caller?.isSome) ∧
      i ∈ (start.after (actions ++ more)).looked
  course (actions : List Action) : (start.after actions).scene =
    start.scene.after (start.after actions).moves
  early (actions : List Action) : (start.after actions).untaken →
    (start.after actions).scene.task.controller.phase = .idle ∧
      ∀ x ∈ start.scene.past (start.after actions).moves, x.input = none ∧ x.output = {}
  begins (actions : List Action) : ¬ (start.after actions).untaken →
    (start.after actions).scene.task.controller.phase = .idle →
      (start.after (actions ++ [.move .begin])).moves = (start.after actions).moves ++ [.begin] ∧
        ((start.after actions).scene.move .begin).2.input = some .start
  /-- Without those who are refused, everything happens in the same way. -/
  alone (actions : List Action) : Alike (start.after actions).looked.head? (start.after actions)
    (start.after (actions.filter (Action.concerns (start.after actions).looked.head?)))
  stops (actions : List Action) :
    (start.after actions).answers.length = actions.countP Action.isRequestStop ∧
      Told (start.after actions)
  /-- A message can be put until the run has returned, and comes back from then on. -/
  closing (actions : List Action) (q : QueueMessage) :
    ((start.after actions).scene.around.queue.put q).1 =
      if (start.after actions).scene.task.result?.isSome then .closed q else .accepted

theorem result?_isSome (t : ControllerTask) :
    t.result?.isSome = t.controller.phase.isEnded := by
  rw [ControllerTask.result?]
  cases t.controller.phase <;> rfl

/-- Of any number of calls, in any order and with anything in between, one runs. -/
theorem exclusive_law {kind : ControllerKind} {fs : FileSystem} {config : Config} {c : Controller}
    (made : Controller.ofSettings kind fs config = .ok c) (around : Surroundings)
    (receiver : around.queue.receiver) : Exclusive (opening c around) := by
  have idle := (Controller.ofSettings_ok made).2.1
  have start : Order (opening c around) :=
    ⟨by simp [opening], nofun, fun i => by simp [opening], fun i => by simp [opening], nofun, .nil⟩
  have order (actions : List Action) : Order ((opening c around).after actions) :=
    after_keeps (fun _ a h => h.act a) start actions
  constructor
  case order => exact order
  case result =>
    intro actions i hi
    simp only [result?, ((order actions).running i).2 hi]
  case refusal =>
    intro actions i hi
    refine ⟨.alreadyRunning, ?_, rfl⟩
    simp only [result?, ((order actions).refused i).2 hi]
  case decides =>
    intro actions i hi
    simp only [after_append]
    exact decides hi
  case course => exact after_scene c around
  case early =>
    intro actions untaken
    have early := after_early c idle around actions untaken
    exact ⟨early.idle, early.nothing⟩
  case begins =>
    intro actions taken hidle
    have hpermits : ((opening c around).after actions).permits .begin := by simp [permits, taken]
    rw [after_concat, act, if_pos hpermits, Scene.move_input]
    exact ⟨rfl, (Scene.Ready.begin hidle).input?_eq⟩
  case alone =>
    intro actions
    exact alike_after ⟨rfl, rfl, rfl, rfl, fun _ _ _ => ⟨rfl, rfl⟩⟩ start actions rfl
  case stops =>
    intro actions
    refine ⟨by simpa [opening] using (opening c around).after_answers actions, ?_⟩
    exact after_keeps (fun _ a h => h.act a) (by simp [Told, opening, Scene.opening]) actions
  case closing =>
    intro actions q
    rw [after_scene]
    have hreceiver := after_receiver idle around ((opening c around).after actions).moves
    generalize (Scene.opening c around).after _ = s at hreceiver
    rw [receiver, Bool.true_and] at hreceiver
    rw [Queue.put, hreceiver, result?_isSome]
    cases s.task.controller.phase.isEnded <;> rfl

/-- Two of three callers come too late, one of them after the end of the run. -/
theorem exclusive_law_three :
    Controller.ofSettings .mock .empty {} = .ok (.mock (.ofSettings "/usr/app/tosearch" 1000 500)) ∧
      (Queue.receiver ({ files := .empty } : Surroundings).queue) ∧
      ∃ k : Contest, k = (opening (.mock (.ofSettings "/usr/app/tosearch" 1000 500))
          { files := .empty }).after
        [.call 7, .call 3, .lock 3, .lock 7, .look 3, .move .requestStop, .lock 7, .move .begin,
          .look 7, .move .heedStop, .call 1, .move .requestStop, .lock 1, .look 1] ∧
        k.looked = [3, 7, 1] ∧ k.result? 3 = some (.ok ()) ∧
        k.result? 7 = some (.error .alreadyRunning) ∧ k.result? 1 = some (.error .alreadyRunning) ∧
        k.answers = [true, false] ∧
        Exclusive (opening (.mock (.ofSettings "/usr/app/tosearch" 1000 500)) { files := .empty }) :=
  ⟨rfl, rfl, _, rfl, rfl, rfl, rfl, rfl, rfl,
    @exclusive_law .mock .empty {} _ rfl { files := .empty } rfl⟩

end SearchRelay.Contest
