import Mathlib.Data.List.Induction
import SearchRelay.Proofs.Trace
import SearchRelay.Queue

namespace SearchRelay.Queue

variable {α : Type} {q : Queue α}

inductive Action (α : Type)
  | put (sender : Nat) (message : α)
  | clone (sender : Nat)
  | dropSender (sender : Nat)
  | isClosed (sender : Nat)
  | get
  | tryGet
  | isEmpty
  | dropReceiver

inductive Answer (α : Type)
  | absent
  | put (outcome : Put α)
  | cloned (sender : Nat)
  | dropped
  | got (outcome : Get α)
  | tried (message : Option α)
  | told (b : Bool)

def Answer.isChange : Answer α → Bool
  | .cloned _ | .dropped => true
  | _ => false

def ofSender (q : Queue α) (i : Nat) (done : Answer α × Queue α) : Answer α × Queue α :=
  if q.hasSender i then done else (.absent, q)

def ofReceiver (q : Queue α) (done : Answer α × Queue α) : Answer α × Queue α :=
  if q.receiver then done else (.absent, q)

def act (q : Queue α) : Action α → Answer α × Queue α
  | .put i a => q.ofSender i (.put (q.put a).1, (q.put a).2)
  | .clone i => q.ofSender i (.cloned q.clone.1, q.clone.2)
  | .dropSender i => q.ofSender i (.dropped, q.dropSender i)
  | .isClosed i => q.ofSender i (.told q.isClosed, q)
  | .get => q.ofReceiver (.got q.get.1, q.get.2)
  | .tryGet => q.ofReceiver (.tried q.tryGet.1, q.tryGet.2)
  | .isEmpty => q.ofReceiver (.told q.isEmpty, q)
  | .dropReceiver => q.ofReceiver (.dropped, q.dropReceiver)

/-- What an action can come to: what is answered, and how the queue is then. -/
inductive Deal (q : Queue α) : Action α → Answer α → Queue α → Prop
  | absent (a : Action α) : Deal q a .absent q
  | accepted {i : Nat} (there : q.hasSender i) (receiver : q.receiver) (a : α) :
      Deal q (.put i a) (.put .accepted) { q with waiting := q.waiting ++ [a] }
  | refused {i : Nat} (there : q.hasSender i) (gone : ¬ q.receiver) (a : α) :
      Deal q (.put i a) (.put (.closed a)) q
  | cloned {i : Nat} (there : q.hasSender i) :
      Deal q (.clone i) (.cloned q.clone.1) q.clone.2
  | senderDropped {i : Nat} (there : q.hasSender i) :
      Deal q (.dropSender i) .dropped (q.dropSender i)
  | closed {i : Nat} (there : q.hasSender i) : Deal q (.isClosed i) (.told q.isClosed) q
  | got (there : q.receiver) {a : α} {r : List α} (front : q.waiting = a :: r) :
      Deal q .get (.got (.message a)) { q with waiting := r }
  | gotNothing (there : q.receiver) (empty : q.waiting = []) :
      Deal q .get (.got (if q.anySender then .pending else .ended)) q
  | tried (there : q.receiver) :
      Deal q .tryGet (.tried q.waiting.head?) { q with waiting := q.waiting.tail }
  | empty (there : q.receiver) : Deal q .isEmpty (.told q.isEmpty) q
  | receiverDropped (there : q.receiver) : Deal q .dropReceiver .dropped q.dropReceiver

theorem Deal.ofSender {i : Nat} {a : Action α} {done : Answer α × Queue α}
    (h : q.hasSender i → Deal q a done.1 done.2) :
    Deal q a (q.ofSender i done).1 (q.ofSender i done).2 := by
  by_cases hs : q.hasSender i
  · rw [Queue.ofSender, if_pos hs]
    exact h hs
  · rw [Queue.ofSender, if_neg hs]
    exact .absent a

theorem Deal.ofReceiver {a : Action α} {done : Answer α × Queue α}
    (h : q.receiver → Deal q a done.1 done.2) :
    Deal q a (q.ofReceiver done).1 (q.ofReceiver done).2 := by
  by_cases hr : q.receiver
  · rw [Queue.ofReceiver, if_pos hr]
    exact h hr
  · rw [Queue.ofReceiver, if_neg hr]
    exact .absent a

theorem act_deal (q : Queue α) (a : Action α) : Deal q a (q.act a).1 (q.act a).2 := by
  cases a with
  | put i m =>
    refine .ofSender fun there => ?_
    by_cases hr : q.receiver
    · simpa only [Queue.put, if_pos hr] using Deal.accepted there hr m
    · simpa only [Queue.put, if_neg hr] using Deal.refused there hr m
  | clone i => exact .ofSender .cloned
  | dropSender i => exact .ofSender .senderDropped
  | isClosed i => exact .ofSender .closed
  | get =>
    refine .ofReceiver fun there => ?_
    cases hw : q.waiting with
    | nil => simpa only [Queue.get, hw] using Deal.gotNothing there hw
    | cons m r => simpa only [Queue.get, hw] using Deal.got there hw
  | tryGet => exact .ofReceiver .tried
  | isEmpty => exact .ofReceiver .empty
  | dropReceiver => exact .ofReceiver .receiverDropped

def step (q : Queue α) (a : Action α) : Queue α := (q.act a).2

def after (q : Queue α) (as : List (Action α)) : Queue α := as.foldl step q

abbrev History (α : Type) := List (Action α × Answer α)

def past (q : Queue α) (as : List (Action α)) : History α :=
  Trace.along step (fun q a => [(a, (q.act a).1)]) q as

theorem after_concat (q : Queue α) (as : List (Action α)) (a : Action α) :
    q.after (as ++ [a]) = ((q.after as).act a).2 := by
  rw [after, List.foldl_append]
  rfl

theorem past_concat (q : Queue α) (as : List (Action α)) (a : Action α) :
    q.past (as ++ [a]) = q.past as ++ [(a, ((q.after as).act a).1)] :=
  Trace.along_concat ..

def accepted? : Action α × Answer α → Option (Nat × α)
  | (.put i a, .put .accepted) => some (i, a)
  | _ => none

def taken? : Action α × Answer α → Option α
  | (_, .got (.message a)) => some a
  | (_, .tried m) => m
  | _ => none

namespace History

def accepted (h : History α) : List (Nat × α) := h.filterMap accepted?

def taken (h : History α) : List α := h.filterMap taken?

/-- A sender that was there from the start, or came as a clone. -/
def Made (h : History α) (i : Nat) : Prop := i = 0 ∨ ∃ a, (a, .cloned i) ∈ h

def Lives (h : History α) (i : Nat) : Prop := h.Made i ∧ (.dropSender i, .dropped) ∉ h

def Deserted (h : History α) : Prop := (.dropReceiver, .dropped) ∈ h

variable (h : History α) (x : Action α × Answer α)

theorem accepted_concat : accepted (h ++ [x]) = h.accepted ++ (accepted? x).toList := by
  cases hx : accepted? x <;> simp [accepted, hx]

theorem taken_concat : taken (h ++ [x]) = h.taken ++ (taken? x).toList := by
  cases hx : taken? x <;> simp [taken, hx]

variable {h x}

theorem made_concat {i : Nat} : Made (h ++ [x]) i ↔ h.Made i ∨ x.2 = .cloned i := by
  simp only [Made, List.mem_append, List.mem_singleton]
  constructor
  · rintro (h0 | ⟨a, ha | rfl⟩)
    · exact .inl (.inl h0)
    · exact .inl (.inr ⟨a, ha⟩)
    · exact .inr rfl
  · rintro ((h0 | ⟨a, ha⟩) | hx)
    · exact .inl h0
    · exact .inr ⟨a, .inl ha⟩
    · exact .inr ⟨x.1, .inr (by rw [← hx])⟩

theorem lives_concat {i : Nat} :
    Lives (h ++ [x]) i ↔ (h.Made i ∨ x.2 = .cloned i) ∧ (.dropSender i, .dropped) ∉ h ∧
      x ≠ (.dropSender i, .dropped) := by
  rw [Lives, made_concat, List.mem_append, List.mem_singleton, not_or, ne_comm, ne_eq]

end History

end SearchRelay.Queue
