import SearchRelay.Proofs.Broadcast.Reader

namespace SearchRelay.Broadcast

inductive Action
  | subscribe
  | send (e : Emit)
  | emit (event : String) (payload : Except PayloadError Json.Value)
  | receive (i : Nat)
  | dropReceiver (i : Nat)

inductive Answer
  | subscribed (receiver : Nat)
  | reached (receivers : Nat) (logs : List LogEntry)
  | received (r : Option (Received Emit))
  | dropped

def act (b : Broadcast Emit) : Action → Answer × Broadcast Emit
  | .subscribe =>
    let (i, b) := b.subscribe
    (.subscribed i, b)
  | .send e =>
    let (n, b) := b.send e
    (.reached n [], b)
  | .emit event payload =>
    let (n, b, logs) := b.emit event payload
    (.reached n logs, b)
  | .receive i =>
    let (r, b) := b.receive i
    (.received r, b)
  | .dropReceiver i => (.dropped, b.dropReceiver i)

def run (b : Broadcast Emit) : List Action → List (Action × Answer) × Broadcast Emit
  | [] => ([], b)
  | a :: r =>
    let (x, b) := b.act a
    let (xs, b) := b.run r
    ((a, x) :: xs, b)

@[simp] theorem run_nil (b : Broadcast Emit) : b.run [] = ([], b) := rfl

theorem run_cons (b : Broadcast Emit) (a : Action) (as : List Action) :
    b.run (a :: as) = ((a, (b.act a).1) :: ((b.act a).2.run as).1, ((b.act a).2.run as).2) := rfl

theorem run_append (b : Broadcast Emit) (as more : List Action) :
    b.run (as ++ more) =
      ((b.run as).1 ++ ((b.run as).2.run more).1, ((b.run as).2.run more).2) := by
  induction as generalizing b with
  | nil => rfl
  | cons a as ih => simp only [List.cons_append, run_cons, ih]

namespace Action

def event? : Action → Option Emit
  | send e => some e
  | emit event (.ok data) => some ⟨event, data⟩
  | _ => none

def isSubscribe : Action → Bool
  | subscribe => true
  | _ => false

def signal? (i : Nat) (a : Action) : Option (Signal Emit) :=
  match a with
  | receive j => if j = i then some .asks else none
  | a => a.event?.map .sent

end Action

def eventsOf (as : List Action) : List Emit := as.filterMap Action.event?

def signals (i : Nat) (as : List Action) : List (Signal Emit) := as.filterMap (Action.signal? i)

def heard? (i : Nat) : Action × Answer → Option (Received Emit)
  | (.receive j, .received r) => if j = i then r else none
  | _ => none

def heardBy (i : Nat) (h : List (Action × Answer)) : List (Received Emit) := h.filterMap (heard? i)

theorem sentBy_signals (i : Nat) (as : List Action) : sentBy (signals i as) = eventsOf as := by
  have h : ∀ a : Action, (a.signal? i).bind Signal.event? = a.event? := by
    intro a
    cases a with
    | receive j => by_cases hj : j = i <;> simp [Action.signal?, Action.event?, Signal.event?, hj]
    | emit event payload =>
      cases payload <;> simp [Action.signal?, Action.event?, Signal.event?]
    | _ => simp [Action.signal?, Action.event?, Signal.event?]
  simp only [sentBy, signals, eventsOf, List.filterMap_filterMap, h]

@[simp] theorem heardBy_nil (i : Nat) : heardBy i [] = [] := rfl

theorem heardBy_append (i : Nat) (h k : List (Action × Answer)) :
    heardBy i (h ++ k) = heardBy i h ++ heardBy i k := List.filterMap_append

theorem heardBy_cons (i : Nat) (x : Action × Answer) (h : List (Action × Answer)) :
    heardBy i (x :: h) = (heard? i x).toList ++ heardBy i h := by
  cases hx : heard? i x <;> simp [heardBy, hx]

theorem heardBy_run_of_not_mem {i : Nat} {as : List Action} (h : Action.receive i ∉ as)
    (b : Broadcast Emit) : heardBy i (b.run as).1 = [] := by
  induction as generalizing b with
  | nil => rfl
  | cons a as ih =>
    obtain ⟨ha, hrest⟩ := List.ne_and_not_mem_of_not_mem_cons h
    have hnone : heard? i (a, (b.act a).1) = none := by
      cases a with
      | receive j =>
        have hj : j ≠ i := fun hj => ha (hj ▸ rfl)
        simp [act, heard?, hj]
      | _ => rfl
    rw [run_cons, heardBy_cons, hnone, ih hrest]
    rfl

theorem signals_cons (i : Nat) (a : Action) (as : List Action) :
    signals i (a :: as) = (a.signal? i).toList ++ signals i as := by
  cases ha : a.signal? i <;> simp [signals, ha]

/-- A receiver with some events ahead of it: the newest of them are kept. -/
structure Tracks (b : Broadcast Emit) (i : Nat) (ahead : List Emit) : Prop where
  there : b.hasBroadcaster
  room : 0 < b.capacity
  behind : ahead.length ≤ b.sent
  position : b.receivers[i]? = some (some (b.sent - ahead.length))
  kept : ahead.reverse.take b.capacity = b.newest.take ahead.length

namespace Tracks

variable {b : Broadcast Emit} {i : Nat} {ahead : List Emit}

theorem subscribe (there : b.hasBroadcaster) (room : 0 < b.capacity) :
    Tracks b.subscribe.2 b.subscribe.1 [] where
  there := there
  room := room
  behind := Nat.zero_le _
  position := by simp [Broadcast.subscribe]
  kept := by simp [Broadcast.subscribe]

theorem subscribe_other (h : Tracks b i ahead) : Tracks b.subscribe.2 i ahead where
  there := h.there
  room := h.room
  behind := h.behind
  position := by
    have hi : i < b.receivers.length := (List.getElem?_eq_some_iff.1 h.position).1
    simpa [Broadcast.subscribe, List.getElem?_append_left hi] using h.position
  kept := h.kept

theorem send (h : Tracks b i ahead) (e : Emit) : Tracks (b.send e).2 i (ahead ++ [e]) where
  there := h.there
  room := h.room
  behind := by simpa [Broadcast.send] using h.behind
  position := by simpa [Broadcast.send] using h.position
  kept := by
    -- The event that may fall out is one that the receiver has lost anyway.
    obtain ⟨c, hc⟩ : ∃ c, b.capacity = c + 1 := ⟨b.capacity - 1, by have := h.room; omega⟩
    have hk := congrArg (List.take c) h.kept
    rw [List.take_take, List.take_take, hc, Nat.min_eq_left (Nat.le_succ c)] at hk
    simp only [Broadcast.send, hc, List.reverse_append, List.reverse_singleton,
      List.singleton_append, List.length_append, List.length_singleton, List.take_succ_cons,
      List.take_take, hk, Nat.min_comm]

theorem other {j : Nat} (h : Tracks b i ahead) (hj : j ≠ i) (p : Option Nat) :
    Tracks { b with receivers := b.receivers.set j p } i ahead where
  there := h.there
  room := h.room
  behind := h.behind
  position := by rw [List.getElem?_set_ne hj]; exact h.position
  kept := h.kept

theorem receiveAt (h : Tracks b i ahead) :
    b.receiveAt (b.sent - ahead.length) =
      ((look b.capacity ahead).1, b.sent - (look b.capacity ahead).2.length) := by
  have hback : b.sent - (b.sent - ahead.length) = ahead.length := by have := h.behind; omega
  obtain ⟨hlt, he⟩ | ⟨rfl, he⟩ | ⟨a, r, rfl, hr, he⟩ := look_cases b.capacity ahead
  · simp only [Broadcast.receiveAt, hback, if_pos hlt, he, List.length_drop]
    congr 2
    omega
  · simp [Broadcast.receiveAt, h.there]
  · have hn : b.newest[r.length]? = some a := by
      have hk := congrArg (fun l => l[r.length]?) h.kept
      simpa [List.getElem?_take, hr] using hk.symm
    have hb : r.length + 1 ≤ b.sent := h.behind
    have hnot : ¬ b.capacity < (a :: r).length := Nat.not_lt.2 hr
    simp only [Broadcast.receiveAt, hback]
    rw [if_neg hnot, he]
    simp only [List.length_cons, hn]
    congr 1
    omega

theorem look (h : Tracks b i ahead) :
    Tracks { b with receivers :=
        b.receivers.set i (some (b.sent - (Broadcast.look b.capacity ahead).2.length)) }
      i (Broadcast.look b.capacity ahead).2 := by
  have hi : i < b.receivers.length := (List.getElem?_eq_some_iff.1 h.position).1
  obtain ⟨hlt, he⟩ | ⟨rfl, he⟩ | ⟨a, r, rfl, hr, he⟩ := look_cases b.capacity ahead <;> rw [he]
  · have hlen : (ahead.drop (ahead.length - b.capacity)).length = b.capacity := by
      rw [List.length_drop]; omega
    refine ⟨h.there, h.room, ?_, List.getElem?_set_self hi, ?_⟩
    · have := h.behind
      show (ahead.drop (ahead.length - b.capacity)).length ≤ b.sent
      omega
    · have hk := congrArg (List.take b.capacity) h.kept
      rw [List.take_take, List.take_take, Nat.min_self, Nat.min_eq_left (Nat.le_of_lt hlt)] at hk
      show (ahead.drop (ahead.length - b.capacity)).reverse.take b.capacity = b.newest.take _
      rw [hlen, ← hk, List.reverse_drop, List.take_take, Nat.min_eq_left (by omega)]
  · exact ⟨h.there, h.room, Nat.zero_le _, List.getElem?_set_self hi, by simp⟩
  · refine ⟨h.there, h.room, ?_, List.getElem?_set_self hi, ?_⟩
    · have hb : r.length + 1 ≤ b.sent := h.behind
      show r.length ≤ b.sent
      omega
    · have hk := congrArg (List.take r.length) h.kept
      rw [List.take_take, List.take_take, Nat.min_eq_left (Nat.le_of_lt hr), List.length_cons,
        Nat.min_eq_left (Nat.le_succ _), List.reverse_cons,
        List.take_append_of_le_length (by simp)] at hk
      show r.reverse.take b.capacity = b.newest.take r.length
      rw [← hk, List.take_of_length_le (by simp; omega), List.take_of_length_le (by simp)]

theorem receive (h : Tracks b i ahead) :
    (b.receive i).1 = some (Broadcast.look b.capacity ahead).1 ∧
      Tracks (b.receive i).2 i (Broadcast.look b.capacity ahead).2 := by
  have hp : b.receivers.getD i none = some (b.sent - ahead.length) := by
    rw [List.getD_eq_getElem?_getD, h.position, Option.getD_some]
  have hr : b.receive i = (some (Broadcast.look b.capacity ahead).1,
      { b with receivers :=
          b.receivers.set i (some (b.sent - (Broadcast.look b.capacity ahead).2.length)) }) := by
    simp only [Broadcast.receive, hp, h.receiveAt]
  rw [hr]
  exact ⟨rfl, h.look⟩

theorem receive_other {j : Nat} (h : Tracks b i ahead) (hj : j ≠ i) :
    Tracks (b.receive j).2 i ahead := by
  simp only [Broadcast.receive]
  split
  · exact h
  · exact h.other hj _

end Tracks

theorem act_tracks {b : Broadcast Emit} {i : Nat} {ahead : List Emit} (h : Tracks b i ahead)
    {a : Action} (ha : a ≠ .dropReceiver i) :
    (heard? i (a, (b.act a).1)).toList = (hear b.capacity ahead (a.signal? i).toList).1 ∧
      Tracks (b.act a).2 i (hear b.capacity ahead (a.signal? i).toList).2 := by
  cases a with
  | subscribe => exact ⟨rfl, h.subscribe_other⟩
  | send e => exact ⟨rfl, h.send e⟩
  | emit event payload =>
    cases payload with
    | error e => exact ⟨rfl, h⟩
    | ok data => exact ⟨rfl, h.send ⟨event, data⟩⟩
  | receive j =>
    by_cases hj : j = i
    · subst j
      obtain ⟨hr, ht⟩ := h.receive
      rw [Action.signal?, if_pos rfl]
      exact ⟨by rw [act, heard?, if_pos rfl, hr]; rfl, ht⟩
    · rw [Action.signal?, if_neg hj]
      exact ⟨by rw [act, heard?, if_neg hj]; rfl, h.receive_other hj⟩
  | dropReceiver j =>
    have hj : j ≠ i := fun hj => ha (hj ▸ rfl)
    exact ⟨rfl, h.other hj none⟩

@[simp] theorem act_capacity (b : Broadcast Emit) (a : Action) :
    (b.act a).2.capacity = b.capacity := by
  cases a with
  | emit event payload => cases payload <;> rfl
  | receive j => simp only [act, Broadcast.receive]; split <;> rfl
  | _ => rfl

@[simp] theorem act_hasBroadcaster (b : Broadcast Emit) (a : Action) :
    (b.act a).2.hasBroadcaster = b.hasBroadcaster := by
  cases a with
  | emit event payload => cases payload <;> rfl
  | receive j => simp only [act, Broadcast.receive]; split <;> rfl
  | _ => rfl

@[simp] theorem run_capacity (b : Broadcast Emit) (as : List Action) :
    (b.run as).2.capacity = b.capacity := by
  induction as generalizing b with
  | nil => rfl
  | cons a as ih => rw [run_cons, ih, act_capacity]

@[simp] theorem run_hasBroadcaster (b : Broadcast Emit) (as : List Action) :
    (b.run as).2.hasBroadcaster = b.hasBroadcaster := by
  induction as generalizing b with
  | nil => rfl
  | cons a as ih => rw [run_cons, ih, act_hasBroadcaster]

/-- A receiver that is not dropped is told what it would be told if it were alone with those who
send. -/
theorem run_tracks {b : Broadcast Emit} {i : Nat} {ahead : List Emit} (h : Tracks b i ahead)
    {as : List Action} (has : Action.dropReceiver i ∉ as) :
    heardBy i (b.run as).1 = (hear b.capacity ahead (signals i as)).1 ∧
      Tracks (b.run as).2 i (hear b.capacity ahead (signals i as)).2 := by
  induction as generalizing b ahead with
  | nil => exact ⟨rfl, h⟩
  | cons a as ih =>
    obtain ⟨ha, hrest⟩ := List.ne_and_not_mem_of_not_mem_cons has
    obtain ⟨hh, ht⟩ := act_tracks h (Ne.symm ha)
    obtain ⟨hhs, hts⟩ := ih ht hrest
    rw [act_capacity] at hhs hts
    rw [run_cons, heardBy_cons, signals_cons, hear_append, hh, hhs]
    exact ⟨rfl, hts⟩

end SearchRelay.Broadcast
