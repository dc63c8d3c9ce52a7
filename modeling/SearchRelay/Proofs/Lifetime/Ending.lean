import SearchRelay.Proofs.Controller.Lasting
import SearchRelay.Proofs.Lifetime.Operation

namespace SearchRelay

namespace Operation

/-- What an incident does to the task of a controller, unless it ends it from outside. -/
inductive Handling (o o' : Operation) : Prop
  | none (before : o.services.controller = .none) (after : o'.services.controller = .none)
      (crash : o'.crash = o.crash)
  | went {t t' : ControllerTask} (before : o.services.controller = some t)
      (after : o'.services.controller = some t') (crash : o'.crash = o.crash)
      (kind : t'.controller.kind = t.controller.kind) (stop : t.stopRequested → t'.stopRequested)
      (aborted : t'.aborted = t.aborted)
      (still : o.running? = .none → t'.controller = t.controller)
  | crashed {t : ControllerTask} (running : o.running? = some t)
      (before : o.services.controller = some t) (after : o'.services.controller = some t)

section

variable {o : Operation} {t : ControllerTask}

theorem running?_none (h : o.services.controller = none) : o.running? = none := by
  rw [running?, h]
  split <;> rfl

theorem running?_eq_some : o.running? = some t ↔
    o.crash = none ∧ o.services.controller = some t ∧ t.isFinished = false := by
  rw [running?]
  cases o.crash with
  | some text => simp
  | none => simp [Option.filter_eq_some_iff]

theorem over_of_running? (h : o.running? = none) (ht : o.services.controller = some t) :
    o.crash.isSome ∨ t.isFinished := by
  cases hc : o.crash with
  | some text => exact .inl rfl
  | none =>
    refine .inr (Bool.of_not_eq_false fun hf => ?_)
    rw [running?_eq_some.2 ⟨hc, ht, hf⟩] at h
    cases h

theorem moved_lasting (o : Operation) (t : ControllerTask) (m : Move) :
    Scene.Lasting (o.scene t) (o.moved t m).1 := by
  unfold moved
  split
  · exact ⟨rfl, id, rfl, rfl, rfl, rfl⟩
  · split
    · exact (o.scene t).aside_lasting m
    · exact (o.scene t).move_lasting m

theorem moved_over (h : o.running? = none) (ht : o.services.controller = some t) (m : Move) :
    (o.moved t m).1.task.controller = t.controller := by
  unfold moved
  split
  · rfl
  · split
    · exact ((o.scene t).aside_keeps m).1
    · rename_i hgoes
      have hended : t.controller.phase.isEnded := by
        rcases over_of_running? h ht with hc | hf
        · simp [hc] at hgoes
        · simp only [ControllerTask.isFinished, ControllerTask.result?, Bool.or_eq_true] at hf
          rcases hf with ha | hr
          · simp [ha] at hgoes
          · cases hp : t.controller.phase with
            | ended r => rfl
            | _ => simp [hp] at hr
      exact Scene.move_of_ended (s := o.scene t) hended m

theorem handling (o : Operation) {i : Incident} (hi : i ≠ .abort) : Handling o (o.step i) := by
  have same {o' : Operation} (hc : o'.services.controller = o.services.controller)
      (crash : o'.crash = o.crash) : Handling o o' := by
    cases ht : o.services.controller with
    | none => exact .none ht (hc.trans ht) crash
    | some t => exact .went ht (hc.trans ht) crash rfl id rfl fun _ => rfl
  cases i with
  | move m =>
    cases ht : o.services.controller with
    | none => exact same (by simp only [step, ht]) (by simp only [step, ht])
    | some t =>
      have lasting := o.moved_lasting t m
      exact .went ht (by simp only [step, ht]; rfl) (by simp only [step, ht]) lasting.kind
        lasting.stop lasting.aborted fun h => moved_over h ht m
  | discard =>
    cases ht : o.services.controller with
    | none =>
      refine .none ht ?_ (by simp only [step, ht])
      simp only [step, ht, Services.discardNext]
      split <;> exact ht
    | some t => exact same (by simp only [step, ht]) (by simp only [step, ht])
  | crash text =>
    cases hr : o.running? with
    | none => exact same (by simp only [step, hr]) (by simp only [step, hr])
    | some t =>
      have ht := (running?_eq_some.1 hr).2.1
      exact .crashed hr ht (by simp only [step, hr]; exact ht)
  | abort => exact absurd rfl hi
  | _ => exact same rfl rfl

theorem Handling.kind {o' : Operation} (turn : Handling o o') :
    o'.services.kind? = o.services.kind? := by
  cases turn with
  | none before after => rw [Services.kind?, Services.kind?, before, after]
  | went before after crash kind =>
    rw [Services.kind?, Services.kind?, before, after, Option.map_some, Option.map_some, kind]
  | crashed running before after => rw [Services.kind?, Services.kind?, before, after]

def Asked (o : Operation) : Prop := ∀ t, o.services.controller = some t → t.stopRequested

theorem Asked.handling {o' : Operation} (h : o.Asked) (turn : Handling o o') : o'.Asked := by
  intro t' ht'
  cases turn with
  | none before after =>
    rw [after] at ht'
    cases ht'
  | went before after crash kind stop =>
    obtain rfl := Option.some.inj (after.symm.trans ht')
    exact stop (h _ before)
  | crashed running before after =>
    obtain rfl := Option.some.inj (after.symm.trans ht')
    exact h _ before

/-- A task broke off or was ended from outside only while it ran. -/
structure Sound (o : Operation) : Prop where
  crashed : o.crash.isSome → ∃ t, o.services.controller = some t ∧ t.isFinished = false
  aborted : ∀ t, o.services.controller = some t → t.aborted → t.result? = none ∧ o.crash = none

theorem Sound.running?_none (h : o.Sound) (ht : o.services.controller = some t)
    (ha : t.aborted) : o.running? = none := by
  rw [running?, ht, (h.aborted t ht ha).2]
  simp [ControllerTask.isFinished, ha]

theorem Sound.handling {o' : Operation} (h : o.Sound) (turn : Handling o o') : o'.Sound := by
  cases turn with
  | none before after crash =>
    refine ⟨fun hc => ?_, fun t ht => ?_⟩
    · obtain ⟨t, ht, -⟩ := h.crashed (crash ▸ hc)
      rw [before] at ht
      cases ht
    · rw [after] at ht
      cases ht
  | @went t t' before after crash kind stop aborted still =>
    have hresult (hr : o.running? = .none) : t'.result? = t.result? := by
      rw [ControllerTask.result?, still hr]
      rfl
    refine ⟨fun hc => ?_, fun t'' ht ha => ?_⟩
    · rw [crash] at hc
      obtain ⟨u, hu, hf⟩ := h.crashed hc
      obtain rfl := Option.some.inj (before.symm.trans hu)
      have hr : o.running? = .none := by simp [running?, hc]
      refine ⟨t', after, ?_⟩
      rw [ControllerTask.isFinished, aborted, hresult hr]
      exact hf
    · obtain rfl := Option.some.inj (after.symm.trans ht)
      rw [aborted] at ha
      rw [hresult (h.running?_none before ha), crash]
      exact h.aborted t before ha
  | @crashed t running before after =>
    have hf := (running?_eq_some.1 running).2.2
    refine ⟨fun _ => ⟨t, after, hf⟩, fun t' ht ha => ?_⟩
    obtain rfl := Option.some.inj (after.symm.trans ht)
    simp [ControllerTask.isFinished, ha] at hf

theorem step_abort (hr : o.running? = some t) : o.step .abort =
    { o with services := { o.services.withQueue o.queue.dropReceiver with
        controller := some { t with aborted := true } } } := by
  simp only [step, (running?_eq_some.1 hr).2.1, hr]

theorem Asked.abort (h : o.Asked) (hr : o.running? = some t) : (o.step .abort).Asked := by
  rw [step_abort hr]
  intro t' ht'
  obtain rfl := Option.some.inj ht'
  exact h t (running?_eq_some.1 hr).2.1

theorem sound_abort (hr : o.running? = some t) : (o.step .abort).Sound := by
  obtain ⟨hcrash, -, hf⟩ := running?_eq_some.1 hr
  rw [step_abort hr]
  refine ⟨fun hc => absurd hc (by simp [hcrash]), fun t' ht' _ => ⟨?_, hcrash⟩⟩
  obtain rfl := Option.some.inj ht'
  simp only [ControllerTask.isFinished, Bool.or_eq_false_iff, Option.isSome_eq_false_iff,
    Option.isNone_iff_eq_none] at hf
  exact hf.2

/-- What became of the controller, once nothing of it runs. -/
def verdict? (o : Operation) : Option ControllerTask.Outcome :=
  match o.crash with
  | some text => some (.failed text)
  | none => o.services.controller.map fun t => t.outcome?.getD .timedOut

end

end Operation

end SearchRelay
