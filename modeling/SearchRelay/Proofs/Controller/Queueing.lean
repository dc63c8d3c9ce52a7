import SearchRelay.Proofs.Controller.Passage
import SearchRelay.Proofs.Mock.Turn

namespace SearchRelay

namespace Controller

variable {c : Controller}

theorem not_ended_of_wantsMessage (h : c.wantsMessage) : c.phase.isEnded = false := by
  cases c with
  | real c =>
    obtain ⟨hp, -⟩ := RealController.wantsMessage_iff.1 h
    rw [phase, hp]
    rfl
  | mock c =>
    obtain ⟨hp, -⟩ := MockController.wantsMessage_iff.1 h
    rw [phase, hp]
    rfl

theorem not_ended_of_wantsTick (h : c.wantsTick) : c.phase.isEnded = false := by
  cases c with
  | real c =>
    obtain ⟨hp, -⟩ := RealController.wantsTick_iff.1 h
    rw [phase, hp]
    rfl
  | mock c =>
    obtain ⟨hp, -⟩ := MockController.wantsTick_iff.1 h
    rw [phase, hp]
    rfl

theorem not_ended_of_isScanning (h : c.isScanning) : c.phase.isEnded = false := by
  cases c with
  | real c =>
    rw [phase]
    rcases RealController.isScanning_iff.1 h with hp | ⟨hp, -⟩ <;> rw [hp] <;> rfl
  | mock c => cases h

theorem step_message (now : Timestamp) (h : c.wantsMessage) (q : QueueMessage) :
    ∃ p, c.step now (.message q) = (c, { events := [.status p] }) := by
  cases c with
  | real c =>
    have hc : c.wantsMessage := h
    refine ⟨⟨.ready, c.root, c.index.size, c.scans, false, now⟩, ?_⟩
    simp only [step, c.step_message now hc q, RealController.status]
  | mock c =>
    have hc : c.wantsMessage := h
    refine ⟨⟨c.state, c.root, c.scanned, if c.state = .indexing then 0 else 1, true, now⟩, ?_⟩
    simp only [step, MockController.step, if_pos hc, MockController.status]

end Controller

namespace Scene

variable {s : Scene}

theorem Ready.not_ended {m : Move} {input : ControllerInput} (h : Ready s m input) :
    s.task.controller.phase.isEnded = false := by
  cases h with
  | begin idle => rw [idle]; rfl
  | heedStop asked running =>
    cases hp : s.task.controller.phase with
    | ended r => rw [hp] at running; cases running
    | _ => rfl
  | endScan inFlight scanning => exact Controller.not_ended_of_isScanning scanning
  | serveQueue wants | noticeEnd wants => exact Controller.not_ended_of_wantsMessage wants
  | tick due =>
    rw [ControllerTask.isTickDue, Bool.and_eq_true] at due
    exact Controller.not_ended_of_wantsTick due.1

theorem input?_of_ended (h : s.task.controller.phase.isEnded) (m : Move) : s.input? m = none := by
  refine Option.eq_none_iff_forall_ne_some.2 fun input hi => ?_
  rw [(ready_of_input? hi).not_ended] at h
  exact Bool.false_ne_true h

/-- What comes of a move for the queue. -/
inductive QueueTurn (s : Scene) (x : Moment) (s' : Scene) : Prop
  | served (q : QueueMessage) (took : x.input = some (.message q)) (p : StatusPayload)
      (answer : x.output.events = [.status p]) (none : x.accepted = [])
      (waiting : s.around.queue.waiting = q :: s'.around.queue.waiting)
      (receiver : s'.around.queue.receiver = s.around.queue.receiver)
      (same : s'.task.controller = s.task.controller)
  | ends (unserved : x.message? = none) (none : x.accepted = [])
      (waiting : s'.around.queue.waiting = []) (receiver : s'.around.queue.receiver = false)
      (running : s.task.controller.phase.isEnded = false)
      (ended : s'.task.controller.phase.isEnded)
  /-- A message may be put, unless nobody is there to take it. -/
  | kept (unserved : x.message? = none)
      (waiting : s'.around.queue.waiting = s.around.queue.waiting ++ x.accepted)
      (shut : s.around.queue.receiver = false → x.accepted = [])
      (receiver : s'.around.queue.receiver = s.around.queue.receiver)
      (phase : s'.task.controller.phase.isEnded = s.task.controller.phase.isEnded)

theorem queueTurn_of_message {m : Move} {q : QueueMessage}
    (h : s.input? m = some (.message q)) : QueueTurn s (s.move m).2 (s.move m).1 := by
  have hw : s.task.controller.wantsMessage := by
    cases ready_of_input? h with
    | serveQueue wants => exact wants
  obtain ⟨p, hp⟩ := Controller.step_message (ControllerTask.timestamp s.around.clock) hw q
  have hrun := Controller.not_ended_of_wantsMessage hw
  have htask : (s.task.take s.around (.message q)).1.controller = s.task.controller := by
    simp only [ControllerTask.take, hp]
  have hqueue : (s.task.take s.around (.message q)).2.1.queue = s.around.queue.get.2 :=
    ControllerTask.take_queue_of_message s.around q (by rw [htask]; exact hrun)
  have hfront := input?_message h
  have hreceiver : s.around.queue.get.2.receiver = s.around.queue.receiver := by
    simp only [Queue.get]
    split <;> rfl
  simp only [move, h]
  refine .served q rfl p ?_ rfl ?_ ?_ htask
  · simp only [ControllerTask.take, hp]
  · rw [hqueue]
    exact hfront
  · rw [hqueue]
    exact hreceiver

theorem queueTurn_of_other {m : Move} {input : ControllerInput} (h : s.input? m = some input)
    (hq : ∀ q, input ≠ .message q) : QueueTurn s (s.move m).2 (s.move m).1 := by
  have hrun := (ready_of_input? h).not_ended
  have hnone : Moment.message? { input := some input } = none := by
    cases input with
    | message q => exact absurd rfl (hq q)
    | _ => rfl
  simp only [move, h]
  cases he : (s.task.take s.around input).1.controller.phase.isEnded with
  | true =>
    have hqueue : (s.task.take s.around input).2.1.queue = s.around.queue.dropReceiver := by
      cases input with
      | message q => exact absurd rfl (hq q)
      | _ =>
        simp only [ControllerTask.take] at he ⊢
        rw [he]
        rfl
    exact .ends hnone rfl (by rw [hqueue]; rfl) (by rw [hqueue]; rfl) hrun he
  | false =>
    have hqueue := ControllerTask.take_queue_of_other s.around input hq he
    exact .kept hnone (by rw [hqueue, List.append_nil]) (fun _ => rfl) (by rw [hqueue])
      (he.trans hrun.symm)

theorem aside_queueTurn (s : Scene) (m : Move) :
    QueueTurn s { accepted := (s.aside m).2 } (s.aside m).1 := by
  have hphase : (s.aside m).1.task.controller.phase.isEnded =
      s.task.controller.phase.isEnded := by rw [(aside_keeps s m).1]
  cases m with
  | put q =>
    by_cases hr : s.around.queue.receiver
    · have hput : s.aside (.put q) =
          (s.withQueue { s.around.queue with waiting := s.around.queue.waiting ++ [q] }, [q]) := by
        simp only [aside, Queue.put, if_pos hr]
      rw [hput] at hphase ⊢
      exact .kept rfl rfl (fun h => absurd hr (by rw [h]; exact Bool.false_ne_true)) rfl hphase
    · have hput : s.aside (.put q) = (s.withQueue s.around.queue, []) := by
        simp only [aside, Queue.put, if_neg hr]
      rw [hput] at hphase ⊢
      exact .kept rfl (List.append_nil _).symm (fun _ => rfl) rfl hphase
  | _ =>
    exact .kept rfl (by simp [aside, withQueue, Queue.clone, Queue.dropSender]) (fun _ => rfl)
      (by simp [aside, withQueue, Queue.clone, Queue.dropSender]) hphase

theorem queueTurn (s : Scene) (m : Move) : QueueTurn s (s.move m).2 (s.move m).1 := by
  cases h : s.input? m with
  | none =>
    have haside := s.aside_queueTurn m
    simp only [move, h]
    exact haside
  | some input =>
    by_cases hq : ∃ q, input = .message q
    · obtain ⟨q, rfl⟩ := hq
      exact queueTurn_of_message h
    · exact queueTurn_of_other h fun q he => hq ⟨q, he⟩

end Scene

end SearchRelay
