import SearchRelay.Proofs.Broadcast.Run

/-!
The events of a broadcast by number. Every receiver stands at a number, which is how many events it
is past; it moves on only when it asks, and past events it is not told of only if they are too old.
-/

namespace SearchRelay.Broadcast

structure Recorded (b : Broadcast Emit) (es : List Emit) : Prop where
  there : b.hasBroadcaster
  sent : b.sent = es.length
  newest : b.newest = es.reverse.take b.capacity

def position? (b : Broadcast Emit) (i : Nat) : Option Nat := b.receivers.getD i none

inductive Glance (capacity : Nat) (es : List Emit) (position : Nat) : Received Emit → Nat → Prop
  | event {e : Emit} (here : es[position]? = some e) (kept : es.length ≤ position + capacity) :
      Glance capacity es position (.event e) (position + 1)
  | lagged {n : Nat} (behind : 0 < n) (kept : position + n + capacity = es.length) :
      Glance capacity es position (.lagged n) (position + n)
  | empty (all : position = es.length) : Glance capacity es position .empty position

/-- The answer with which a receiver comes past an event: it gets that very event, or it is told of
a row of missed events of which that is one. The newest events are never missed. -/
inductive Passes (capacity : Nat) (es : List Emit) (number : Nat) (e : Emit) (position : Nat) :
    Received Emit → Prop
  | gets (here : position = number) : Passes capacity es number e position (.event e)
  | misses {n : Nat} (first : position ≤ number) (last : number < position + n)
      (old : number + capacity < es.length) : Passes capacity es number e position (.lagged n)

namespace Glance

variable {capacity position next number : Nat} {es : List Emit} {r : Received Emit} {e : Emit}

theorem le_length (g : Glance capacity es position r next) : next ≤ es.length := by
  cases g with
  | event here =>
    obtain ⟨hlt, -⟩ := List.getElem?_eq_some_iff.1 here
    exact hlt
  | lagged behind kept => omega
  | empty all => exact Nat.le_of_eq all

theorem passes (g : Glance capacity es position r next) (he : es[number]? = some e)
    (hp : position ≤ number) (hn : number < next) : Passes capacity es number e position r := by
  cases g with
  | event here =>
    obtain rfl : position = number := by omega
    obtain rfl := Option.some.inj (here.symm.trans he)
    exact .gets rfl
  | lagged behind kept => exact .misses hp hn (by omega)
  | empty all => omega

/-- While there is an event ahead, a receiver that asks moves on. -/
theorem lt_next (g : Glance capacity es position r next) (h : position < es.length) :
    position < next := by
  cases g with
  | event here => exact Nat.lt_succ_self position
  | lagged behind kept => exact Nat.lt_add_of_pos_right behind
  | empty all => exact absurd all (Nat.ne_of_lt h)

end Glance

variable {b : Broadcast Emit} {es : List Emit} {i p : Nat}

theorem lt_of_position? (hi : b.position? i = some p) : i < b.receivers.length := by
  apply Nat.lt_of_not_le
  intro hle
  rw [position?, List.getD_eq_getElem?_getD, List.getElem?_eq_none hle] at hi
  exact nomatch hi

theorem Recorded.getElem?_newest (h : Recorded b es) {n : Nat} (hn : n < es.length)
    (hc : n < b.capacity) : b.newest[n]? = es[es.length - 1 - n]? := by
  rw [h.newest, List.getElem?_take_of_lt hc, List.getElem?_reverse hn]

theorem Recorded.receiveAt (h : Recorded b es) (hp : p ≤ es.length) :
    Glance b.capacity es p (b.receiveAt p).1 (b.receiveAt p).2 := by
  simp only [Broadcast.receiveAt, h.sent]
  by_cases hlag : b.capacity < es.length - p
  · rw [if_pos hlag]
    have hnext : es.length - b.capacity = p + (es.length - p - b.capacity) := by omega
    simp only [hnext]
    exact .lagged (by omega) (by omega)
  · rw [if_neg hlag]
    cases hback : es.length - p with
    | zero =>
      rw [if_pos h.there]
      exact .empty (by omega)
    | succ n =>
      have hn : n < es.length := by omega
      have hat : es.length - 1 - n = p := by omega
      have he : b.newest[n]? = some es[p] := by
        rw [h.getElem?_newest hn (by omega), hat]
        exact List.getElem?_eq_getElem (by omega)
      simp only [he]
      exact .event (List.getElem?_eq_getElem (by omega)) (by omega)

theorem Recorded.receive (h : Recorded b es) (hi : b.position? i = some p) (hp : p ≤ es.length) :
    ∃ r next, (b.receive i).1 = some r ∧ (b.receive i).2.position? i = some next ∧
      Glance b.capacity es p r next := by
  have hg := h.receiveAt hp
  have hlt := lt_of_position? hi
  have hreceive : b.receive i = (some (b.receiveAt p).1,
      { b with receivers := b.receivers.set i (some (b.receiveAt p).2) }) := by
    rw [position?] at hi
    simp only [Broadcast.receive, hi]
  refine ⟨(b.receiveAt p).1, (b.receiveAt p).2, ?_, ?_, hg⟩
  · rw [hreceive]
  · rw [hreceive, position?, List.getD_eq_getElem?_getD, List.getElem?_set_self hlt]
    rfl

theorem Recorded.act (h : Recorded b es) (a : Action) :
    Recorded (b.act a).2 (es ++ a.event?.toList) := by
  have sends (e : Emit) : Recorded (b.send e).2 (es ++ [e]) := by
    refine ⟨h.there, ?_, ?_⟩
    · simp only [send, h.sent, List.length_append, List.length_singleton]
    · simp only [send, h.newest, List.reverse_append, List.reverse_singleton,
        List.singleton_append]
      cases b.capacity with
      | zero => rfl
      | succ c => simp only [List.take_succ_cons, List.take_take, Nat.min_eq_left (Nat.le_succ c)]
  have stays (b' : Broadcast Emit) (hb : b'.hasBroadcaster = b.hasBroadcaster)
      (hs : b'.sent = b.sent) (hn : b'.newest = b.newest) (hc : b'.capacity = b.capacity) :
      Recorded b' (es ++ []) := by
    rw [List.append_nil]
    exact ⟨hb.trans h.there, hs.trans h.sent, by rw [hn, hc, h.newest]⟩
  cases a with
  | send e => exact sends e
  | emit event payload =>
    cases payload with
    | ok data => exact sends ⟨event, data⟩
    | error e => exact stays b rfl rfl rfl rfl
  | receive j =>
    refine stays _ (act_hasBroadcaster b _) ?_ ?_ (act_capacity b _)
    · simp only [Broadcast.act, Broadcast.receive]
      split <;> rfl
    · simp only [Broadcast.act, Broadcast.receive]
      split <;> rfl
  | _ => exact stays _ rfl rfl rfl rfl

theorem Recorded.run (h : Recorded b es) (as : List Action) :
    Recorded (b.run as).2 (es ++ eventsOf as) := by
  induction as generalizing b es with
  | nil =>
    rw [run_nil]
    simpa [eventsOf] using h
  | cons a as ih =>
    have hcons : es ++ eventsOf (a :: as) = es ++ a.event?.toList ++ eventsOf as := by
      cases he : a.event? <;> simp [eventsOf, he]
    rw [run_cons, hcons]
    exact ih (h.act a)

/-- A receiver stays where it is, whatever the others do. -/
theorem act_position? (hi : b.position? i = some p) {a : Action} (hr : a ≠ .receive i)
    (hd : a ≠ .dropReceiver i) : (b.act a).2.position? i = some p := by
  have hlt := lt_of_position? hi
  rw [position?, List.getD_eq_getElem?_getD] at hi ⊢
  cases a with
  | subscribe =>
    simpa [Broadcast.act, Broadcast.subscribe, List.getElem?_append_left hlt] using hi
  | send e => exact hi
  | emit event payload => cases payload <;> exact hi
  | receive j =>
    have hj : j ≠ i := fun hj => hr (hj ▸ rfl)
    simp only [Broadcast.act, Broadcast.receive]
    split
    · exact hi
    · rw [List.getElem?_set_ne hj]
      exact hi
  | dropReceiver j =>
    have hj : j ≠ i := fun hj => hd (hj ▸ rfl)
    simp only [Broadcast.act, Broadcast.dropReceiver]
    rw [List.getElem?_set_ne hj]
    exact hi

theorem run_position? (hi : b.position? i = some p) {as : List Action} (hr : .receive i ∉ as)
    (hd : .dropReceiver i ∉ as) : (b.run as).2.position? i = some p := by
  induction as generalizing b with
  | nil => exact hi
  | cons a as ih =>
    obtain ⟨hra, hr⟩ := List.ne_and_not_mem_of_not_mem_cons hr
    obtain ⟨hda, hd⟩ := List.ne_and_not_mem_of_not_mem_cons hd
    rw [run_cons]
    exact ih (act_position? hi (Ne.symm hra) (Ne.symm hda)) hr hd

theorem recorded_of_ofCapacity {capacity : Nat} (h : ofCapacity capacity = .ok b) :
    Recorded b [] := by
  unfold ofCapacity at h
  split at h
  · exact nomatch h
  · obtain rfl := Except.ok.inj h
    exact ⟨rfl, rfl, by simp⟩

theorem subscribe_position? (b : Broadcast Emit) :
    b.subscribe.2.position? b.subscribe.1 = some b.sent := by
  simp [position?, subscribe]

end SearchRelay.Broadcast
