import Mathlib.Data.List.Induction
import SearchRelay.Proofs.Lifetime.Operation
import SearchRelay.Proofs.Lifetime.Start

/-!
No client that came is lost from the accounts: its message was answered, or discarded by the sink,
or still waits, or was refused because nobody took messages any more, or it waited when whoever took
them ended.
-/

namespace SearchRelay.Operation

def connects (_ : Operation) : Incident → List ClientId
  | .connect client => [client]
  | _ => []

def replies (o : Operation) : Incident → List ControllerEvent
  | .move m =>
    match o.services.controller with
    | some t =>
      let x := (o.moved t m).2
      if x.message?.isSome then x.output.events else []
    | none => []
  | _ => []

def refused (o : Operation) : Incident → List ClientId
  | .connect client => if o.queue.receiver then [] else [client]
  | _ => []

def drops (o : Operation) : Incident → List LogEntry
  | .connect client => (o.services.relay.connect client).2.filter LogEntry.isDrop
  | _ => []

def stranded (o : Operation) (i : Incident) : List QueueMessage :=
  if (o.step i).queue.receiver then [] else o.queue.waiting

structure Tally where
  connects : Nat
  replies : Nat
  discarded : Nat
  waiting : Nat
  refused : Nat
  stranded : Nat

def tally (o : Operation) (incidents : List Incident) : Tally where
  connects := (o.along connects incidents).length
  replies := (o.along replies incidents).length
  discarded := (o.after incidents).services.discarded
  waiting := (o.after incidents).queue.waiting.length
  refused := (o.along refused incidents).length
  stranded := (o.along stranded incidents).length

def isBystander : Incident → Bool
  | .disconnect _ | .request _ _ | .use _ => true
  | _ => false

/-- Nothing waits once nobody takes messages any more. -/
def Settled (o : Operation) : Prop := o.queue.receiver = false → o.queue.waiting = []

section

variable {o : Operation}

theorem moved_queue {t : ControllerTask} (h : o.services.controller = some t) (m : Move) :
    (o.step (.move m)).queue = (o.moved t m).1.around.queue := by
  simp only [step, h]
  rfl

theorem stranded_of_same {i : Incident} (h : o.Settled)
    (receiver : (o.step i).queue.receiver = o.queue.receiver) : o.stranded i = [] := by
  rw [stranded, receiver]
  cases hr : o.queue.receiver with
  | true => rfl
  | false => exact h hr

/-- What an incident does to the accounts, and that nothing waits in vain after it. -/
structure Balance (o : Operation) (i : Incident) : Prop where
  sum : (o.connects i).length + o.services.discarded + o.queue.waiting.length =
    (o.replies i).length + (o.step i).services.discarded + (o.step i).queue.waiting.length +
      (o.refused i).length + (o.stranded i).length
  settled : (o.step i).Settled

theorem balance_of_same {i : Incident} (h : o.Settled)
    (waiting : (o.step i).queue.waiting = o.queue.waiting)
    (receiver : (o.step i).queue.receiver = o.queue.receiver)
    (discarded : (o.step i).services.discarded = o.services.discarded)
    (connects : o.connects i = []) (replies : o.replies i = []) (refused : o.refused i = []) :
    Balance o i where
  sum := by
    rw [waiting, discarded, connects, replies, refused, stranded_of_same h receiver]
    simp only [List.length_nil]
    omega
  settled := by
    rw [Settled, waiting, receiver]
    exact h

theorem balance_move {t : ControllerTask} (h : o.Settled) (ht : o.services.controller = some t)
    (m : Move) : Balance o (.move m) := by
  have hqueue := moved_queue ht m
  have hdiscarded : (o.step (.move m)).services.discarded = o.services.discarded := by
    simp only [step, ht]
    rfl
  obtain ⟨turn, haccepted⟩ := o.moved_turn t m
  cases turn with
  | served q took p answer none waiting receiver same =>
    have hwaiting : o.queue.waiting = q :: (o.step (.move m)).queue.waiting := hqueue ▸ waiting
    have hopen : (o.step (.move m)).queue.receiver := by
      rw [hqueue, receiver]
      cases hr : o.queue.receiver with
      | true => exact hr
      | false =>
        rw [h hr] at hwaiting
        cases hwaiting
    have hreplies : o.replies (.move m) = [.status p] := by
      simp only [replies, ht, Moment.message?, took]
      exact answer
    have hstranded : o.stranded (.move m) = [] := if_pos hopen
    refine ⟨?_, fun hr => absurd hopen (Bool.eq_false_iff.1 hr)⟩
    rw [hreplies, hstranded, hdiscarded, hwaiting]
    simp only [connects, refused, List.length_cons, List.length_nil]
    omega
  | ends unserved none waiting receiver =>
    have hreplies : o.replies (.move m) = [] := by simp [replies, ht, unserved]
    have hstranded : o.stranded (.move m) = o.queue.waiting := by
      rw [stranded, hqueue, receiver]
      rfl
    refine ⟨?_, fun _ => hqueue ▸ waiting⟩
    rw [hreplies, hstranded, hdiscarded, hqueue, waiting]
    simp only [connects, refused, List.length_nil]
    omega
  | kept unserved waiting shut receiver =>
    have hreplies : o.replies (.move m) = [] := by simp [replies, ht, unserved]
    rw [haccepted, List.append_nil] at waiting
    exact balance_of_same h (hqueue ▸ waiting) (hqueue ▸ receiver) hdiscarded rfl hreplies rfl

theorem balance_drop {i : Incident} (hqueue : (o.step i).queue = o.queue.dropReceiver)
    (discarded : (o.step i).services.discarded = o.services.discarded)
    (connects : o.connects i = []) (replies : o.replies i = []) (refused : o.refused i = []) :
    Balance o i := by
  have hstranded : o.stranded i = o.queue.waiting := by
    rw [stranded, hqueue]
    rfl
  refine ⟨?_, fun _ => by rw [hqueue]; rfl⟩
  rw [hstranded, hqueue, discarded, connects, replies, refused]
  simp only [Queue.dropReceiver, List.length_nil]
  omega

theorem balance_discard (h : o.Settled) (none : o.services.controller = none) :
    Balance o .discard := by
  have hstep : o.step .discard = { o with services := o.services.discardNext.1 } := by
    simp only [step, none]
  cases hw : o.queue.waiting with
  | nil =>
    cases hs : o.queue.anySender with
    | true =>
      rw [Services.discardNext_pending hw hs] at hstep
      exact balance_of_same h (by rw [hstep]) (by rw [hstep]) (by rw [hstep]) rfl rfl rfl
    | false =>
      rw [Services.discardNext_ended hw hs] at hstep
      exact balance_drop (by rw [hstep]; rfl) (by rw [hstep]; rfl) rfl rfl rfl
  | cons q rest =>
    rw [Services.discardNext_cons hw] at hstep
    have hopen : o.queue.receiver := by
      cases hr : o.queue.receiver with
      | true => rfl
      | false =>
        rw [h hr] at hw
        cases hw
    have hstays : (o.step .discard).queue.receiver := by
      rw [hstep]
      exact hopen
    have hstranded : o.stranded .discard = [] := if_pos hstays
    refine ⟨?_, fun hr => absurd hstays (Bool.eq_false_iff.1 hr)⟩
    have hwaiting : (o.step .discard).queue.waiting = rest := by rw [hstep]; rfl
    have hdiscarded : (o.step .discard).services.discarded = o.services.discarded + 1 := by
      rw [hstep]
    rw [hstranded, hwaiting, hdiscarded, hw]
    simp only [connects, replies, refused, List.length_cons, List.length_nil]
    omega

theorem balance_connect (h : o.Settled) (client : ClientId) : Balance o (.connect client) := by
  cases hr : o.queue.receiver with
  | true =>
    have hqueue : (o.step (.connect client)).queue =
        { o.queue with waiting := o.queue.waiting ++ [.newConnection client] } := by
      simp only [step, Relay.connect_open hr]
      rfl
    have hstays : (o.step (.connect client)).queue.receiver := by
      rw [hqueue]
      exact hr
    have hstranded : o.stranded (.connect client) = [] := if_pos hstays
    have hrefused : o.refused (.connect client) = [] := if_pos hr
    refine ⟨?_, fun hshut => absurd hstays (Bool.eq_false_iff.1 hshut)⟩
    rw [hstranded, hrefused, hqueue]
    simp only [connects, replies, step, List.length_append, List.length_cons, List.length_nil]
    omega
  | false =>
    have hqueue : (o.step (.connect client)).queue = o.queue := by
      simp only [step, Relay.connect_shut hr]
      rfl
    have hstranded : o.stranded (.connect client) = [] :=
      stranded_of_same h (by rw [hqueue])
    have hrefused : o.refused (.connect client) = [client] := by
      rw [refused, hr]
      rfl
    refine ⟨?_, by rw [Settled, hqueue]; exact h⟩
    rw [hstranded, hrefused, hqueue]
    simp only [connects, replies, step, List.length_cons, List.length_nil]
    omega

theorem balance (h : o.Settled) (i : Incident) : Balance o i := by
  have same (hstep : o.step i = o) (hc : o.connects i = []) (hr : o.replies i = [])
      (hf : o.refused i = []) : Balance o i :=
    balance_of_same h (by rw [hstep]) (by rw [hstep]) (by rw [hstep]) hc hr hf
  -- Only moves, discards, clients and the end of those who take messages touch the accounts.
  cases i with
  | move m =>
    cases ht : o.services.controller with
    | some t => exact balance_move h ht m
    | none => exact same (by simp only [step, ht]) rfl (by simp only [replies, ht]) rfl
  | discard =>
    cases ht : o.services.controller with
    | some t => exact same (by simp only [step, ht]) rfl rfl rfl
    | none => exact balance_discard h ht
  | connect client => exact balance_connect h client
  | disconnect client => exact balance_of_same h rfl rfl rfl rfl rfl rfl
  | request r upgradable => exact same rfl rfl rfl rfl
  | use action => exact balance_of_same h rfl rfl rfl rfl rfl rfl
  | close => exact balance_of_same h rfl rfl rfl rfl rfl rfl
  | crash text =>
    cases hr : o.running? with
    | some t =>
      have hstep : o.step (.crash text) =
          { o with services := o.services.withQueue o.queue.dropReceiver, crash := some text } := by
        simp only [step, hr]
      exact balance_drop (by rw [hstep]; rfl) (by rw [hstep]; rfl) rfl rfl rfl
    | none => exact same (by simp only [step, hr]) rfl rfl rfl
  | abort =>
    cases ht : o.services.controller with
    | none =>
      have hstep : o.step .abort =
          { o with services := o.services.withQueue o.queue.dropReceiver } := by
        simp only [step, ht]
      exact balance_drop (by rw [hstep]; rfl) (by rw [hstep]; rfl) rfl rfl rfl
    | some t =>
      cases hr : o.running? with
      | some t' =>
        have hstep : o.step .abort = { o with
            services := { o.services.withQueue o.queue.dropReceiver with
              controller := some { t' with aborted := true } } } := by
          simp only [step, ht, hr]
        exact balance_drop (by rw [hstep]; rfl) (by rw [hstep]; rfl) rfl rfl rfl
      | none => exact same (by simp only [step, ht, hr]) rfl rfl rfl

/-- What the accounts add up to after some incidents. -/
structure Conserved (start : Operation) (incidents : List Incident) : Prop where
  sum : (start.tally incidents).connects =
    (start.tally incidents).replies + (start.tally incidents).discarded +
      (start.tally incidents).waiting + (start.tally incidents).refused +
      (start.tally incidents).stranded
  settled : (start.after incidents).Settled

theorem conserved_run (start : Operation) (waiting : start.queue.waiting = [])
    (discarded : start.services.discarded = 0) (incidents : List Incident) :
    Conserved start incidents := by
  induction incidents using List.reverseRecOn with
  | nil =>
    refine ⟨?_, fun _ => waiting⟩
    simp only [tally, after, List.foldl_nil, waiting, discarded]
    rfl
  | append_singleton incidents i ih =>
    obtain ⟨hsum, hsettled⟩ := balance ih.settled i
    have hold := ih.sum
    refine ⟨?_, ?_⟩
    · simp only [tally, after_concat, along_concat, List.length_append] at hold ⊢
      omega
    · rw [after_concat]
      exact hsettled

theorem replies_status (o : Operation) (i : Incident) :
    ∀ e ∈ o.replies i, ∃ p, e = .status p := by
  intro e he
  cases i with
  | move m =>
    cases ht : o.services.controller with
    | none => simp [replies, ht] at he
    | some t =>
      obtain ⟨turn, -⟩ := o.moved_turn t m
      cases turn with
      | served q took p answer =>
        have hreplies : o.replies (.move m) = [.status p] := by
          simp only [replies, ht, Moment.message?, took]
          exact answer
        rw [hreplies] at he
        exact ⟨p, List.mem_singleton.1 he⟩
      | ends unserved => simp [replies, ht, unserved] at he
      | kept unserved => simp [replies, ht, unserved] at he
  | _ => cases he

theorem drops_eq (o : Operation) (i : Incident) : o.drops i = (o.refused i).map Relay.unheard := by
  cases i with
  | connect client =>
    rw [drops, Relay.connect_drops, refused]
    by_cases hr : o.queue.receiver
    · rw [if_pos hr]
      exact if_pos hr
    · rw [if_neg hr]
      exact if_neg hr
  | _ => rfl

theorem tally_bystander {start : Operation} {incidents : List Incident}
    (h : (start.after incidents).Settled) {i : Incident} (hi : isBystander i) :
    start.tally (incidents ++ [i]) = start.tally incidents := by
  have same (queue : ((start.after incidents).step i).queue = (start.after incidents).queue)
      (discarded : ((start.after incidents).step i).services.discarded =
        (start.after incidents).services.discarded)
      (connects : (start.after incidents).connects i = [])
      (replies : (start.after incidents).replies i = [])
      (refused : (start.after incidents).refused i = []) :
      start.tally (incidents ++ [i]) = start.tally incidents := by
    have stranded := stranded_of_same h (congrArg Queue.receiver queue)
    simp only [tally, after_concat, along_concat, queue, discarded, connects, replies, refused,
      stranded, List.append_nil]
  cases i with
  | disconnect client => exact same rfl rfl rfl rfl rfl
  | request r upgradable => exact same rfl rfl rfl rfl rfl
  | use action => exact same rfl rfl rfl rfl rfl
  | _ => cases hi

structure SinkOnly (o : Operation) : Prop where
  alone : o.services.controller = none
  receiver : o.queue.receiver
  sender : o.queue.anySender

theorem SinkOnly.step (h : SinkOnly o) {i : Incident} (hi : i ≠ .abort) : SinkOnly (o.step i) := by
  have hidle : o.running? = none := by
    rw [running?, h.alone]
    cases o.crash <;> rfl
  cases i with
  | move m => simpa only [Operation.step, h.alone] using h
  | discard =>
    cases hw : o.queue.waiting with
    | nil =>
      have hstep : o.step .discard = o := by
        simp only [Operation.step, h.alone, Services.discardNext_pending hw h.sender]
      rw [hstep]
      exact h
    | cons q rest =>
      have hstep : (o.step .discard).services =
          { o.services.withQueue { o.queue with waiting := rest } with
            discarded := o.services.discarded + 1 } := by
        simp only [Operation.step, h.alone, Services.discardNext_cons hw]
        rfl
      exact ⟨by rw [hstep]; exact h.alone, by rw [queue, hstep]; exact h.receiver,
        by rw [queue, hstep]; exact h.sender⟩
  | connect client =>
    have hstep : (o.step (.connect client)).queue =
        { o.queue with waiting := o.queue.waiting ++ [.newConnection client] } := by
      simp only [Operation.step, Relay.connect_open h.receiver]
      rfl
    exact ⟨h.alone, by rw [hstep]; exact h.receiver, by rw [hstep]; exact h.sender⟩
  | crash text => simpa only [Operation.step, hidle] using h
  | abort => exact absurd rfl hi
  | _ => exact ⟨h.alone, h.receiver, h.sender⟩

theorem SinkOnly.unanswered (h : SinkOnly o) {i : Incident} (hi : i ≠ .abort) :
    o.replies i = [] ∧ o.refused i = [] ∧ o.stranded i = [] := by
  refine ⟨?_, ?_, if_pos (h.step hi).receiver⟩
  · cases i with
    | move m => simp only [replies, h.alone]
    | _ => rfl
  · cases i with
    | connect client => exact if_pos h.receiver
    | _ => rfl

theorem sinkOnly_run {start : Operation} (h : SinkOnly start) {incidents : List Incident}
    (hi : .abort ∉ incidents) : SinkOnly (start.after incidents) ∧
      start.along replies incidents = [] ∧ start.along refused incidents = [] ∧
        start.along stranded incidents = [] := by
  induction incidents using List.reverseRecOn with
  | nil => exact ⟨h, rfl, rfl, rfl⟩
  | append_singleton incidents i ih =>
    simp only [List.mem_append, List.mem_singleton, not_or] at hi
    obtain ⟨hopen, hreplies, hrefused, hstranded⟩ := ih hi.1
    obtain ⟨hreply, hrefuse, hstrand⟩ := hopen.unanswered (Ne.symm hi.2)
    refine ⟨?_, ?_, ?_, ?_⟩
    · rw [after_concat]
      exact hopen.step (Ne.symm hi.2)
    · rw [along_concat, hreplies, hreply]
      rfl
    · rw [along_concat, hrefused, hrefuse]
      rfl
    · rw [along_concat, hstranded, hstrand]
      rfl

end

/-- The accounts of the clients that came, after all that happened since a start. -/
structure Accounted (mode : ControllerMode) (start : Operation) (incidents : List Incident) :
    Prop where
  conserved : (start.tally incidents).connects =
    (start.tally incidents).replies + (start.tally incidents).discarded +
      (start.tally incidents).waiting + (start.tally incidents).refused +
      (start.tally incidents).stranded
  answered : ∀ e ∈ start.along replies incidents, ∃ p, e = .status p
  logged : start.along drops incidents = (start.along refused incidents).map Relay.unheard
  bystanders : ∀ i, isBystander i → start.tally (incidents ++ [i]) = start.tally incidents
  /-- Without a controller, and as long as the sink is not ended, no message is refused. -/
  sink : mode = .disabled → .abort ∉ incidents → (start.tally incidents).refused = 0 ∧
    (start.tally incidents).connects =
      (start.tally incidents).discarded + (start.tally incidents).waiting

/-- Whatever the mode, and whatever happens after the start, no client is lost from the accounts. -/
theorem connects_conserved {b : Bootstrap} {host : Host} {services : Services}
    (started : (b.start host).1 = .ok services) (incidents : List Incident) :
    Accounted b.mode { services, host } incidents := by
  have turn := b.start_turn host
  rw [started] at turn
  obtain ⟨hqueue, hdiscarded, hkind⟩ := turn.fresh
  have hwaiting : services.relay.queue.waiting = [] := by rw [hqueue]
  have hrun := conserved_run { services, host } hwaiting hdiscarded incidents
  refine ⟨hrun.sum, Trace.forall_mem_along step replies_status _ incidents,
    Trace.along_map step drops_eq _ incidents, fun i hi => tally_bystander hrun.settled hi,
    fun hmode habort => ?_⟩
  have halone : services.controller = none := by
    rw [hmode] at hkind
    exact Option.map_eq_none_iff.1 hkind
  have hsink : SinkOnly { services, host } :=
    ⟨halone, congrArg Queue.receiver hqueue, congrArg Queue.anySender hqueue⟩
  obtain ⟨-, hreplies, hrefused, hstranded⟩ := sinkOnly_run hsink habort
  have hsum := hrun.sum
  simp only [tally, hreplies, hrefused, hstranded, List.length_nil] at hsum ⊢
  exact ⟨trivial, by omega⟩

/-- Of two clients, the sink has discarded the message of the first. -/
theorem connects_conserved_sink : ∃ services,
    (Bootstrap.start ⟨{}, .disabled, .init⟩ { files := .empty }).1 = .ok services ∧
      Accounted .disabled { services, host := { files := .empty } }
        [.connect ⟨7⟩, .connect ⟨8⟩, .discard] :=
  ⟨_, rfl, @connects_conserved ⟨{}, .disabled, .init⟩ _ _ rfl _⟩

end SearchRelay.Operation
