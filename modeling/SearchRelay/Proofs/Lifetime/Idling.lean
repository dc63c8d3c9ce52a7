import SearchRelay.Proofs.Controller.Settling
import SearchRelay.Proofs.Lifetime.Operation

namespace SearchRelay

namespace Scene

theorem move_own_clock {s : Scene} {m : Move} (h : m.isOwn) :
    (s.move m).1.around.clock = s.around.clock := by
  cases hi : s.input? m with
  | some input => simp only [move, hi]; rfl
  | none =>
    simp only [move, hi]
    cases m with
    | advance ms => cases h
    | put q => cases h
    | _ => rfl

end Scene

theorem Move.not_put_of_own {m : Move} (h : m.isOwn) : m.isPut = false := by
  cases m with
  | put q => cases h
  | _ => rfl

namespace Operation

/-- Nothing befell the controller, and it waits for no scan that is not in flight. -/
structure Intact (o : Operation) : Prop where
  whole : o.crash = none
  task : ∀ t, o.services.controller = some t → t.aborted = false ∧ (o.scene t).Attended

section

variable {o : Operation} {t : ControllerTask}

def adopting (o : Operation) (s : Scene) (h : History) : Operation :=
  { o with
    services := o.services.adopt (some s.task) s.around { events := h.events }
    inFlight := s.inFlight }

theorem logs_own (ht : o.services.controller = some t) {m : Move} (h : m.isOwn) :
    o.logs (.move m) = (o.moved t m).2.output.logs.map fun e => ⟨.core, e⟩ := by
  cases m with
  | requestStop => cases h
  | _ =>
    simp only [logs, ht]
    rfl

theorem Intact.step_own (h : o.Intact) (ht : o.services.controller = some t) {m : Move}
    (own : m.isOwn) : o.moved t m = (o.scene t).move m ∧
      o.step (.move m) = o.adopting ((o.scene t).move m).1 [((o.scene t).move m).2] := by
  have hmoved : o.moved t m = (o.scene t).move m := by
    simp [moved, Move.not_put_of_own own, (h.task t ht).1, h.whole]
  refine ⟨hmoved, ?_⟩
  have hclock : ((o.scene t).move m).1.around.clock = o.host.clock :=
    Scene.move_own_clock own
  have hevents (x : Moment) : History.events [x] = x.output.events := List.append_nil _
  simp only [step, ht, hmoved, hclock, adopting, hevents]
  rfl

theorem adopting_nil (ht : o.services.controller = some t) : o.adopting (o.scene t) [] = o := by
  rw [adopting]
  show { o with services := o.services.adopt (some t) _ _, inFlight := o.inFlight } = o
  rw [← ht]
  rfl

theorem adopting_adopting (s s' : Scene) (h k : History) :
    (o.adopting s h).adopting s' k = o.adopting s' (h ++ k) := by
  simp only [adopting, Services.adopt, History.events_append, List.foldl_append]

theorem adopting_controller (s : Scene) (h : History) :
    (o.adopting s h).services.controller = some s.task := rfl

theorem adopting_scene {s : Scene} (h : History) (lasting : Scene.Lasting (o.scene t) s)
    (clock : s.around.clock = o.host.clock) : (o.adopting s h).scene s.task = s := by
  obtain ⟨task, ⟨files, c, held, queue, draw⟩, inFlight⟩ := s
  obtain ⟨-, -, -, rfl, rfl, rfl⟩ := lasting
  obtain rfl : c = o.host.clock := clock
  rfl

theorem Intact.adopting (h : o.Intact) (ht : o.services.controller = some t) {m : Move}
    (own : m.isOwn) :
    (o.adopting ((o.scene t).move m).1 [((o.scene t).move m).2]).Intact ∧
      (o.adopting ((o.scene t).move m).1 [((o.scene t).move m).2]).scene
        ((o.scene t).move m).1.task = ((o.scene t).move m).1 := by
  have lasting := (o.scene t).move_lasting m
  have hscene := adopting_scene (o := o) [((o.scene t).move m).2] lasting
    (Scene.move_own_clock own)
  obtain ⟨hleft, hattended⟩ := h.task t ht
  refine ⟨⟨h.whole, fun t' ht' => ?_⟩, hscene⟩
  obtain rfl := Option.some.inj ht'
  rw [hscene]
  exact ⟨lasting.aborted.trans hleft, hattended.move m⟩

theorem Intact.after_moves (h : o.Intact) (ht : o.services.controller = some t)
    {ms : List Move} (own : ∀ m ∈ ms, m.isOwn) :
    (o.after (ms.map .move)).Intact ∧
      o.after (ms.map .move) = o.adopting ((o.scene t).after ms) ((o.scene t).past ms) ∧
        o.along logs (ms.map .move) = ((o.scene t).past ms).logs.map fun e => ⟨.core, e⟩ := by
  induction ms generalizing o t with
  | nil => exact ⟨h, (adopting_nil ht).symm, rfl⟩
  | cons m ms ih =>
    obtain ⟨hm, hms⟩ := List.forall_mem_cons.1 own
    obtain ⟨hmoved, hstep⟩ := h.step_own ht hm
    obtain ⟨hintact, hscene⟩ := h.adopting ht hm
    obtain ⟨hend, hafter, hlogs⟩ := ih hintact (adopting_controller _ _) hms
    rw [hscene] at hafter hlogs
    rw [adopting_adopting] at hafter
    refine ⟨?_, ?_, ?_⟩
    · rw [List.map_cons, after, List.foldl_cons, hstep]
      exact hend
    · rw [List.map_cons, after, List.foldl_cons, hstep]
      exact hafter
    · rw [List.map_cons, along, Trace.along, hstep, logs_own ht hm, hmoved]
      refine (congrArg _ hlogs).trans ?_
      exact List.map_append.symm

theorem after_discards {waiting : List QueueMessage} (hw : o.queue.waiting = waiting)
    (alone : o.services.controller = none) :
    o.after (waiting.map fun _ => .discard) = { o with services := o.services.discard.1 } ∧
      o.along logs (waiting.map fun _ => .discard) = o.services.discard.2 := by
  induction waiting generalizing o with
  | nil =>
    have hsame : o.services.discard = (o.services, []) := by
      have hq : { o.services.relay.queue with waiting := [] } = o.services.relay.queue := by
        rw [← hw]
        rfl
      have hnil : o.services.relay.queue.waiting = [] := hw
      simp only [Services.discard, hnil, hq, List.length_nil, Nat.add_zero, List.map_nil]
    rw [hsame]
    exact ⟨rfl, rfl⟩
  | cons q rest ih =>
    have hnext := Services.discardNext_cons hw
    have hstep : o.step .discard = { o with services := o.services.discardNext.1 } := by
      simp only [step, alone]
    have hlogs : o.logs .discard = [Services.discardedLog q] := by
      simp only [logs, alone, hnext]
    rw [hnext] at hstep
    obtain ⟨hafter, halong⟩ := ih (o := o.step .discard) (by rw [hstep]; rfl)
      (by rw [hstep]; exact alone)
    have hcons : o.services.relay.queue.waiting = q :: rest := hw
    refine ⟨?_, ?_⟩
    · rw [List.map_cons, after, List.foldl_cons]
      refine hafter.trans ?_
      rw [hstep]
      simp only [Services.discard, Services.withQueue, hcons, List.length_cons]
      rw [Nat.add_assoc, Nat.add_comm 1]
      rfl
    · rw [List.map_cons, along, Trace.along, hlogs]
      refine (congrArg _ halong).trans ?_
      rw [hstep]
      simp only [Services.discard, hcons]
      rfl

/-- What becomes of all that was started by some incidents of its own. -/
structure Comes (o : Operation) (incidents : List Incident) (r : Services × List LogRecord) :
    Prop where
  kept : ∀ i ∈ incidents, i.isAbort = false
  intact : (o.after incidents).Intact
  host : (o.after incidents).host = o.host
  services : (o.after incidents).services = r.1
  logs : o.along Operation.logs incidents = r.2

theorem Intact.idle (h : o.Intact) :
    ∃ incidents, Comes o incidents (o.services.idle o.host) := by
  -- Without a controller the sink empties the queue; otherwise the task settles, which is a run.
  cases ht : o.services.controller with
  | none =>
    have hidle : o.services.idle o.host = o.services.discard := by
      simp only [Services.idle, Services.settle, ht]
    obtain ⟨hafter, hlogs⟩ := after_discards (o := o) rfl ht
    rw [hidle]
    refine ⟨_, ?_, ?_, ?_, ?_, hlogs⟩
    · intro i hi
      obtain ⟨q, -, rfl⟩ := List.mem_map.1 hi
      rfl
    · rw [hafter]
      refine ⟨h.whole, fun t ht' => ?_⟩
      rw [show o.services.discard.1.controller = none from ht] at ht'
      cases ht'
    · rw [hafter]
    · rw [hafter]
  | some t =>
    obtain ⟨ms, run⟩ := Scene.settle_is_run (h.task t ht).2
    change Scene.Settles _ _ _ (t.settle (o.services.surroundings o.host)) at run
    obtain ⟨hintact, hafter, hlogs⟩ := h.after_moves ht run.own
    have hidle : o.services.idle o.host =
        (o.services.adopt (some ((o.scene t).after ms).task) ((o.scene t).after ms).around
            { events := ((o.scene t).past ms).events },
          ((o.scene t).past ms).logs.map fun e => ⟨.core, e⟩) := by
      have hevents := run.events
      have hsaid := run.logs
      rw [List.nil_append] at hevents hsaid
      rw [← run.task, ← run.around, ← hevents, ← hsaid]
      simp only [Services.idle, Services.settle, ht]
      rfl
    rw [hidle]
    refine ⟨ms.map .move, ?_, hintact, ?_, ?_, hlogs⟩
    · intro i hi
      obtain ⟨m, -, rfl⟩ := List.mem_map.1 hi
      rfl
    · rw [hafter]
      rfl
    · rw [hafter]
      rfl

/-- What a controller does with its time may happen. -/
theorem Intact.spend (h : o.Intact) (ht : o.services.controller = some t) (milliseconds : Nat) :
    ∃ incidents, (∀ i ∈ incidents, i.isAbort = false) ∧ (o.after incidents).Intact ∧
      (o.after incidents).services.controller =
        some (t.spend (o.services.surroundings o.host) milliseconds).1 ∧
      o.along logs incidents =
        (t.spend (o.services.surroundings o.host) milliseconds).2.2.logs.map
          fun e => ⟨.core, e⟩ := by
  unfold ControllerTask.spend
  split
  · exact ⟨[], List.forall_mem_nil _, h, ht, rfl⟩
  · obtain ⟨incidents, comes⟩ := h.idle
    have hservices := comes.services
    have hlogs := comes.logs
    simp only [Services.idle, Services.settle, ht] at hservices hlogs
    exact ⟨incidents, comes.kept, comes.intact, by rw [hservices]; rfl, hlogs⟩

end

end Operation

end SearchRelay
