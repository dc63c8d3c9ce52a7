import SearchRelay.Proofs.Queue.Run

/-!
What everybody who uses a queue can rely on: every message that was put comes out once, in the order
in which the messages were put, and the answers say truly who is there and what waits.
-/

namespace SearchRelay.Queue

variable {α : Type} {q q' : Queue α} {h : History α}

theorem hasSender_iff {i : Nat} : q.hasSender i ↔ q.senders[i]? = some true := by
  rw [hasSender, List.getD_eq_getElem?_getD]
  cases q.senders[i]? <;> simp

/-- The queue knows who is there. Senders are numbered as they come. -/
structure Staffed (h : History α) (q : Queue α) : Prop where
  made : ∀ i, h.Made i → i < q.senders.length
  dropped : ∀ i, (.dropSender i, .dropped) ∈ h → i < q.senders.length
  senders : ∀ i, q.hasSender i ↔ h.Lives i
  receiver : q.receiver ↔ ¬ h.Deserted

theorem Staffed.clone (s : Staffed h q) (i : Nat) :
    Staffed (h ++ [(.clone i, .cloned q.clone.1)]) q.clone.2 where
  made j hj := by
    have hlength : q.clone.2.senders.length = q.senders.length + 1 := by simp [Queue.clone]
    rw [hlength]
    rcases History.made_concat.1 hj with hj | hj
    · exact Nat.lt_succ_of_lt (s.made j hj)
    · obtain rfl : q.senders.length = j := Answer.cloned.inj hj
      exact Nat.lt_succ_self _
  dropped j hj := by
    have hlt : j < q.senders.length := s.dropped j (by simpa using hj)
    simpa [Queue.clone] using Nat.lt_succ_of_lt hlt
  senders j := by
    rw [hasSender_iff, History.lives_concat]
    rcases Nat.lt_trichotomy j q.senders.length with hlt | rfl | hlt
    · have hold := s.senders j
      rw [hasSender_iff, History.Lives] at hold
      have hne : q.senders.length ≠ j := Nat.ne_of_gt hlt
      simp [Queue.clone, List.getElem?_append_left hlt, hold, hne]
    · have hnew : (.dropSender q.senders.length, .dropped) ∉ h :=
        fun hd => Nat.lt_irrefl _ (s.dropped _ hd)
      simp [Queue.clone, hnew]
    · have hmade : ¬ h.Made j := fun hm => Nat.lt_asymm hlt (s.made j hm)
      have hnone : (q.senders ++ [true])[j]? = none := List.getElem?_eq_none (by simp; omega)
      simp [Queue.clone, hnone, hmade, Nat.ne_of_lt hlt]
  receiver := by simpa [History.Deserted, Queue.clone] using s.receiver

theorem Staffed.dropSender (s : Staffed h q) {i : Nat} (there : q.hasSender i) :
    Staffed (h ++ [(.dropSender i, .dropped)]) (q.dropSender i) where
  made j hj := by
    have hmade : h.Made j := by simpa [History.made_concat] using hj
    simpa [Queue.dropSender] using s.made j hmade
  dropped j hj := by
    rcases List.mem_append.1 hj with hj | hj
    · simpa [Queue.dropSender] using s.dropped j hj
    · obtain rfl : j = i := by simpa using hj
      simpa [Queue.dropSender] using s.made j ((s.senders j).1 there).1
  senders j := by
    have hold := s.senders j
    rw [hasSender_iff, History.Lives] at hold
    rw [hasSender_iff, History.lives_concat, Queue.dropSender]
    by_cases hj : i = j
    · subst j
      have hlt := s.made i ((s.senders i).1 there).1
      simp [hlt]
    · rw [List.getElem?_set_ne hj, hold]
      simp [hj]
  receiver := by simpa [History.Deserted, Queue.dropSender] using s.receiver

theorem Staffed.dropReceiver (s : Staffed h q) :
    Staffed (h ++ [(.dropReceiver, .dropped)]) q.dropReceiver where
  made j hj := s.made j (by simpa [History.made_concat] using hj)
  dropped j hj := s.dropped j (by simpa using hj)
  senders j := by
    have hold := s.senders j
    rw [History.Lives] at hold
    simpa [History.lives_concat, Queue.dropReceiver, hasSender] using hold
  receiver := by simp [History.Deserted, Queue.dropReceiver]

theorem Staffed.same (s : Staffed h q) (senders : q'.senders = q.senders)
    (receiver : q'.receiver = q.receiver) {a : Action α} {x : Answer α}
    (change : x.isChange = false) : Staffed (h ++ [(a, x)]) q' := by
  have clones (i : Nat) : x ≠ .cloned i := fun he => by simp [he, Answer.isChange] at change
  have drops : x ≠ .dropped := fun he => by simp [he, Answer.isChange] at change
  constructor
  case made =>
    intro i hi
    exact senders ▸ s.made i ((History.made_concat.1 hi).resolve_right (clones i))
  case dropped =>
    intro i hi
    exact senders ▸ s.dropped i (by simpa [drops.symm] using hi)
  case senders =>
    intro i
    rw [hasSender, senders, ← hasSender, s.senders, History.lives_concat]
    simp [History.Lives, clones i, drops]
  case receiver =>
    rw [receiver, s.receiver]
    simp [History.Deserted, drops.symm]

theorem Staffed.deal {a : Action α} {x : Answer α} (s : Staffed h q) (d : Deal q a x q') :
    Staffed (h ++ [(a, x)]) q' := by
  cases d with
  | cloned there => exact s.clone _
  | senderDropped there => exact s.dropSender there
  | receiverDropped there => exact s.dropReceiver
  | absent | accepted | refused | closed | got | gotNothing | tried | empty =>
    apply s.same <;> rfl

/-- Messages come out in the order in which they were put, and while somebody is there to take them
the others wait. -/
structure Flow (h : History α) (q : Queue α) : Prop where
  in_order : h.taken <+: h.accepted.map Prod.snd
  whole : q.receiver → h.accepted.map Prod.snd = h.taken ++ q.waiting

theorem Flow.quiet (f : Flow h q) {x : Action α × Answer α} (accepted : accepted? x = none)
    (taken : taken? x = none) (waiting : q'.waiting = q.waiting)
    (receiver : q'.receiver = q.receiver) : Flow (h ++ [x]) q' where
  in_order := by
    simpa [History.accepted_concat, History.taken_concat, accepted, taken] using f.in_order
  whole := by
    simpa [History.accepted_concat, History.taken_concat, accepted, taken, waiting, receiver]
      using f.whole

theorem Flow.accepted (f : Flow h q) (there : q.receiver) (i : Nat) (a : α) :
    Flow (h ++ [(.put i a, .put .accepted)]) { q with waiting := q.waiting ++ [a] } := by
  have hput : (History.accepted (h ++ [(.put i a, .put .accepted)])).map Prod.snd =
      h.accepted.map Prod.snd ++ [a] := by
    rw [History.accepted_concat, List.map_append]
    rfl
  have htaken : History.taken (h ++ [(.put i a, .put .accepted)]) = h.taken := by
    rw [History.taken_concat]
    exact List.append_nil _
  constructor
  · rw [hput, htaken]
    exact f.in_order.trans (List.prefix_append _ _)
  · intro _
    rw [hput, htaken, f.whole there, List.append_assoc]

theorem Flow.taken (f : Flow h q) (there : q.receiver) {a : α} {r : List α}
    (front : q.waiting = a :: r) {x : Action α × Answer α} (accepted : accepted? x = none)
    (taken : taken? x = some a) : Flow (h ++ [x]) { q with waiting := r } := by
  have hwhole : (History.accepted (h ++ [x])).map Prod.snd = History.taken (h ++ [x]) ++ r := by
    have hold := f.whole there
    rw [front] at hold
    simpa [History.accepted_concat, History.taken_concat, accepted, taken] using hold
  exact ⟨⟨r, hwhole.symm⟩, fun _ => hwhole⟩

theorem Flow.deal {a : Action α} {x : Answer α} (f : Flow h q) (d : Deal q a x q') :
    Flow (h ++ [(a, x)]) q' := by
  cases d with
  | absent | refused | cloned | senderDropped | closed | empty =>
    apply f.quiet <;> simp [accepted?, taken?, Queue.clone, Queue.dropSender]
  | accepted there receiver => exact f.accepted receiver _ _
  | got there front => exact f.taken there front rfl rfl
  | gotNothing there empty =>
    apply f.quiet <;> by_cases hs : q.anySender <;> simp [accepted?, taken?, hs]
  | tried there =>
    cases hw : q.waiting with
    | nil => apply f.quiet <;> simp [accepted?, taken?, hw]
    | cons a r => exact f.taken there hw rfl rfl
  | receiverDropped there =>
    have hold : Flow (h ++ [(.dropReceiver, .dropped)]) q := by
      apply f.quiet <;> simp [accepted?, taken?]
    exact ⟨hold.in_order, fun hr => nomatch hr⟩

theorem staffed_fresh : Staffed [] ({} : Queue α) where
  made i hi := by
    obtain rfl : i = 0 := by simpa [History.Made] using hi
    exact Nat.one_pos
  dropped i hi := nomatch hi
  senders i := by cases i <;> simp [hasSender, History.Lives, History.Made]
  receiver := by simp [History.Deserted]

theorem recorded_run (as : List (Action α)) :
    Staffed (({} : Queue α).past as) (({} : Queue α).after as) ∧
      Flow (({} : Queue α).past as) (({} : Queue α).after as) := by
  induction as using List.reverseRecOn with
  | nil => exact ⟨staffed_fresh, List.nil_prefix, fun _ => rfl⟩
  | append_singleton as a ih =>
    rw [after_concat, past_concat]
    exact ⟨ih.1.deal (act_deal _ a), ih.2.deal (act_deal _ a)⟩

theorem anySender_iff : q.anySender ↔ ∃ i, q.hasSender i := by
  simp only [hasSender_iff, anySender, List.any_eq_true, id]
  constructor
  · rintro ⟨b, hb, rfl⟩
    exact List.getElem?_of_mem hb
  · rintro ⟨i, hi⟩
    exact ⟨true, List.mem_of_getElem? hi, rfl⟩

theorem act_get (there : q.receiver) :
    (∀ a, (q.act .get).1 = .got (.message a) ↔ q.waiting.head? = some a) ∧
      ((q.act .get).1 = .got .ended ↔ q.waiting = [] ∧ ¬ q.anySender) ∧
      ((q.act .get).1 = .got .pending ↔ q.waiting = [] ∧ q.anySender) := by
  rw [act, ofReceiver, if_pos there]
  cases hw : q.waiting with
  | nil => by_cases hs : q.anySender <;> simp [Queue.get, hw, hs]
  | cons m r => simp [Queue.get, hw]

/-- What a queue is to everybody who uses it, at some moment. -/
structure FifoLaw (start : Queue α) (as : List (Action α)) : Prop where
  /-- What was taken, whichever way, is a beginning of what was put. -/
  in_order : (start.past as).taken <+: (start.past as).accepted.map Prod.snd
  whole : ¬ (start.past as).Deserted →
    (start.past as).accepted.map Prod.snd = (start.past as).taken ++ (start.after as).waiting
  /-- So it is for each sender alone, if what was taken is told by senders. -/
  own_order (i : Nat) : ∃ ps, ps.map Prod.snd = (start.past as).taken ∧
    ps <+: (start.past as).accepted ∧
    ps.filter (·.1 = i) <+: (start.past as).accepted.filter (·.1 = i)
  put_accepted (i : Nat) (a : α) : (start.past as).Lives i →
    (((start.after as).act (.put i a)).1 = .put .accepted ↔ ¬ (start.past as).Deserted)
  put_closed (i : Nat) (a b : α) : (start.past as).Lives i →
    (((start.after as).act (.put i a)).1 = .put (.closed b) ↔ (start.past as).Deserted ∧ b = a)
  got_message (a : α) : ¬ (start.past as).Deserted →
    (((start.after as).act .get).1 = .got (.message a) ↔ (start.after as).waiting.head? = some a)
  got_ended : ¬ (start.past as).Deserted → (((start.after as).act .get).1 = .got .ended ↔
    (start.after as).waiting = [] ∧ ¬ ∃ i, (start.past as).Lives i)
  got_pending : ¬ (start.past as).Deserted → (((start.after as).act .get).1 = .got .pending ↔
    (start.after as).waiting = [] ∧ ∃ i, (start.past as).Lives i)
  tried : ¬ (start.past as).Deserted →
    ((start.after as).act .tryGet).1 = .tried (start.after as).waiting.head?
  isEmpty : ¬ (start.past as).Deserted → ∃ b, ((start.after as).act .isEmpty).1 = .told b ∧
    (b ↔ (start.after as).waiting = [])
  isClosed (i : Nat) : (start.past as).Lives i →
    ∃ b, ((start.after as).act (.isClosed i)).1 = .told b ∧ (b ↔ (start.past as).Deserted)

/-- Every use of a queue keeps to its law at every moment. -/
theorem fifo_law (as : List (Action α)) : FifoLaw ({} : Queue α) as := by
  obtain ⟨staffed, flow⟩ := recorded_run as
  generalize ({} : Queue α) = start at staffed flow
  have there : ¬ (start.past as).Deserted → (start.after as).receiver := staffed.receiver.2
  have gone : (start.past as).Deserted ↔ ¬ (start.after as).receiver := by
    rw [staffed.receiver, not_not]
  have some_sender : (start.after as).anySender ↔ ∃ i, (start.past as).Lives i := by
    simp only [anySender_iff, staffed.senders]
  constructor
  case in_order => exact flow.in_order
  case whole => exact fun hd => flow.whole (there hd)
  case own_order =>
    intro i
    -- What was taken is the front of what was put, and so it is for every sender.
    have hps := List.take_prefix (start.past as).taken.length (start.past as).accepted
    refine ⟨_, ?_, hps, hps.filter _⟩
    rw [List.map_take]
    exact (List.prefix_iff_eq_take.1 flow.in_order).symm
  case put_accepted =>
    intro i a hi
    rw [gone, not_not]
    by_cases hr : (start.after as).receiver <;>
      simp [act, ofSender, (staffed.senders i).2 hi, Queue.put, hr]
  case put_closed =>
    intro i a b hi
    rw [gone]
    by_cases hr : (start.after as).receiver <;>
      simp [act, ofSender, (staffed.senders i).2 hi, Queue.put, hr, eq_comm]
  case got_message => exact fun a hd => (act_get (there hd)).1 a
  case got_ended =>
    intro hd
    rw [← some_sender]
    exact (act_get (there hd)).2.1
  case got_pending =>
    intro hd
    rw [← some_sender]
    exact (act_get (there hd)).2.2
  case tried =>
    intro hd
    simp [act, ofReceiver, there hd, Queue.tryGet]
  case isEmpty =>
    intro hd
    exact ⟨(start.after as).isEmpty, by simp [act, ofReceiver, there hd], by simp [Queue.isEmpty]⟩
  case isClosed =>
    intro i hi
    refine ⟨(start.after as).isClosed, by simp [act, ofSender, (staffed.senders i).2 hi], ?_⟩
    rw [gone]
    simp [Queue.isClosed]

/-- The last sender goes while a message waits, which comes out all the same. -/
example : (({} : Queue Nat).past [.put 0 7, .clone 0, .put 1 8, .dropSender 0, .tryGet,
    .dropSender 1, .get, .get]).map Prod.snd =
    [.put .accepted, .cloned 1, .put .accepted, .dropped, .tried (some 7), .dropped,
      .got (.message 8), .got .ended] := rfl

end SearchRelay.Queue
