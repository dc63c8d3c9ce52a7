import SearchRelay.Proofs.Lifetime.Standing
import SearchRelay.Proofs.Lifetime.Undisturbed

namespace SearchRelay.Life

section

variable {b : Bootstrap} {host : Host} {l : Life} {errands : List Errand} {visited : List Phase}

def Ends (l : Life) : Prop :=
  ∃ more : List Happening, (∀ x ∈ more, x.isOwn) ∧ (l.after more).chapter.result?.isSome

theorem Ends.cons {x : Happening} (h : Ends (l.step x)) (own : x.isOwn) : Ends l := by
  obtain ⟨more, howns, hends⟩ := h
  exact ⟨x :: more, List.forall_mem_cons.2 ⟨own, howns⟩, hends⟩

theorem ends_of_result (h : l.chapter.result?.isSome) : Ends l :=
  ⟨[], List.forall_mem_nil _, h⟩

section

variable {o : Operation} {s : Service}

theorem ends_halted (h : l.chapter = .running o (.halted s)) : Ends l := by
  have conclude {l : Life} {o : Operation} (h : l.chapter = .running o (.halted s))
      (idle : o.running? = none) : Ends l := by
    refine Ends.cons (x := .conclude) (ends_of_result ?_) rfl
    simp only [Life.step, h, idle]
    rfl
  cases hr : o.running? with
  | none => exact conclude h hr
  | some t =>
    refine Ends.cons (x := .giveUp) (conclude (o := o.step .abort) ?_ ?_) rfl
    · simp only [Life.step, h, hr]
    · rw [Operation.step_abort hr]
      simp [Operation.running?, ControllerTask.isFinished]

theorem ends_served (h : l.chapter = .running o (.served s)) : Ends l := by
  refine Ends.cons (x := .halt)
    (ends_halted (o := { o with services := (l.bootstrap.halt o.services).1 }) (s := s) ?_) rfl
  simp only [Life.step, h]

theorem ends_serving (h : l.chapter = .running o .serving) : Ends l := by
  refine Ends.cons (x := .serve (.ok ()))
    (ends_served (o := o.step .close) (s := .served (.ok ())) ?_) rfl
  simp only [Life.step, h]

theorem ends_started (h : l.chapter = .running o .started) : Ends l := by
  refine Ends.cons (x := .bind (.ok ())) (ends_serving (o := o) ?_) rfl
  simp only [Life.step, h]

end

theorem Standing.ends (h : Standing b host l) (init : b.phase = .init)
    (room : b.config.server.broadcastCapacity ≤ Broadcast.maxCapacity) : Ends l := by
  have later {l : Life} (h : Standing b host l) (begun : l.chapter ≠ .fresh) : Ends l := by
    obtain ⟨errands, visited, reached, -⟩ := h.reached
    generalize hc : l.chapter = c at reached begun
    cases reached with
    | fresh => exact absurd rfl begun
    | failed => exact ends_of_result (by rw [hc]; rfl)
    | running made sound kind leg =>
      cases leg with
      | started => exact ends_started hc
      | serving => exact ends_serving hc
      | served s => exact ends_served hc
      | halted s => exact ends_halted hc
    | returned => exact ends_of_result (by rw [hc]; rfl)
  by_cases hf : l.chapter = .fresh
  · refine Ends.cons (x := .start) (later (h.start init room) ?_) rfl
    simp only [Life.step, hf]
    cases (l.bootstrap.start l.host).1 <;> exact Chapter.noConfusion
  · exact later h hf

end

end SearchRelay.Life
