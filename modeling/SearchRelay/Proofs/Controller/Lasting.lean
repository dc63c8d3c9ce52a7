import SearchRelay.Proofs.Controller.Queueing

namespace SearchRelay

theorem Controller.step_kind (c : Controller) (now : Timestamp) (input : ControllerInput) :
    (c.step now input).1.kind = c.kind := by
  cases c <;> rfl

namespace Scene

/-- A controller stays of its kind, a stop that was asked for stays so, and nobody but its owner
ends a task from outside. -/
structure Lasting (s s' : Scene) : Prop where
  kind : s'.task.controller.kind = s.task.controller.kind
  stop : s.task.stopRequested → s'.task.stopRequested
  aborted : s'.task.aborted = s.task.aborted
  files : s'.around.files = s.around.files
  held : s'.around.held = s.around.held
  draw : s'.around.draw = s.around.draw

theorem aside_lasting (s : Scene) (m : Move) : Lasting s (s.aside m).1 := by
  cases m with
  | requestStop => exact ⟨rfl, fun _ => rfl, rfl, rfl, rfl, rfl⟩
  | put q =>
    simp only [aside]
    split <;> exact ⟨rfl, id, rfl, rfl, rfl, rfl⟩
  | _ => exact ⟨rfl, id, rfl, rfl, rfl, rfl⟩

theorem move_lasting (s : Scene) (m : Move) : Lasting s (s.move m).1 := by
  cases hi : s.input? m with
  | some input =>
    simp only [move, hi]
    exact ⟨s.task.controller.step_kind _ input, id, rfl, rfl, rfl, rfl⟩
  | none =>
    simp only [move, hi]
    exact s.aside_lasting m

theorem move_stopRequested (s : Scene) (m : Move) :
    (s.move m).1.task.stopRequested ↔ s.task.stopRequested ∨ .requestStop = m := by
  cases hi : s.input? m with
  | some input =>
    have hm : .requestStop ≠ m := by
      rintro rfl
      cases hi
    simp only [move, hi]
    exact ⟨.inl, fun h => h.resolve_right hm⟩
  | none =>
    simp only [move, hi]
    cases m with
    | requestStop => simp [aside, ControllerTask.stop]
    | put q =>
      simp only [aside]
      split <;> simp [withQueue]
    | _ => simp [aside, withQueue]

theorem after_stopRequested (s : Scene) (ms : List Move) :
    (s.after ms).task.stopRequested ↔ s.task.stopRequested ∨ .requestStop ∈ ms := by
  induction ms generalizing s with
  | nil => simp [after, run]
  | cons m ms ih =>
    rw [after, run_cons, ← after, ih, move_stopRequested, List.mem_cons, or_assoc]

theorem move_of_ended {s : Scene} (h : s.task.controller.phase.isEnded) (m : Move) :
    (s.move m).1.task.controller = s.task.controller := by
  simp only [move, input?_of_ended h m]
  exact (s.aside_keeps m).1

theorem run_of_ended {s : Scene} (h : s.task.controller.phase.isEnded) (ms : List Move) :
    (s.after ms).task.controller = s.task.controller ∧ (s.past ms).events = [] := by
  refine run_keeps (P := fun past s' => s'.task.controller = s.task.controller ∧
    past.events = []) (h := []) ?_ ⟨rfl, rfl⟩ ms
  rintro past s' m ⟨hc, hnone⟩
  have he : s'.task.controller.phase.isEnded := hc ▸ h
  refine ⟨(move_of_ended he m).trans hc, ?_⟩
  rw [History.events_concat, hnone]
  simp only [move, input?_of_ended he m]
  rfl

end Scene

end SearchRelay
