import SearchRelay.Broadcast

/-!
A receiver by itself. It has a list of its own of what it has not yet heard of, and it loses the
oldest of that only when it asks with more than the capacity still to come. What it is told
accounts for everything that was sent, in the order in which it was sent.
-/

namespace SearchRelay.Broadcast

variable {α : Type}

def Received.event? : Received α → Option α
  | event a => some a
  | _ => none

def Received.skipped : Received α → Nat
  | lagged n => n
  | _ => 0

def delivered (rs : List (Received α)) : List α := rs.filterMap Received.event?

def lost : List (Received α) → Nat
  | [] => 0
  | r :: rs => r.skipped + lost rs

@[simp] theorem delivered_nil : delivered ([] : List (Received α)) = [] := rfl

@[simp] theorem delivered_event (a : α) (rs : List (Received α)) :
    delivered (.event a :: rs) = a :: delivered rs := rfl

@[simp] theorem delivered_lagged (n : Nat) (rs : List (Received α)) :
    delivered (.lagged n :: rs) = delivered rs := rfl

@[simp] theorem delivered_empty (rs : List (Received α)) :
    delivered (.empty :: rs) = delivered rs := rfl

@[simp] theorem lost_nil : lost ([] : List (Received α)) = 0 := rfl

@[simp] theorem lost_cons (r : Received α) (rs : List (Received α)) :
    lost (r :: rs) = r.skipped + lost rs := rfl

/-- Answers that tell of a list of events from its front to its end: every event is delivered, or
it is one of a number of events in a row that were missed. -/
inductive Accounts : List (Received α) → List α → Prop
  | nil : Accounts [] []
  | event {rs : List (Received α)} {s : List α} (a : α) (h : Accounts rs s) :
      Accounts (.event a :: rs) (a :: s)
  | lagged {rs : List (Received α)} {s : List α} (skipped : List α) (h : Accounts rs s) :
      Accounts (.lagged skipped.length :: rs) (skipped ++ s)
  | empty {rs : List (Received α)} {s : List α} (h : Accounts rs s) : Accounts (.empty :: rs) s

namespace Accounts

theorem length_eq {rs : List (Received α)} {s : List α} (h : Accounts rs s) :
    s.length = (delivered rs).length + lost rs := by
  induction h with
  | nil => rfl
  | event a h ih => simp [Received.skipped, ih]; omega
  | lagged skipped h ih => simp [Received.skipped, ih]; omega
  | empty h ih => simp [Received.skipped, ih]

theorem delivered_sublist {rs : List (Received α)} {s : List α} (h : Accounts rs s) :
    (delivered rs).Sublist s := by
  induction h with
  | nil => exact .slnil
  | event a h ih => exact ih.cons_cons a
  | lagged skipped h ih => exact ih.trans (List.sublist_append_right skipped _)
  | empty h ih => exact ih

theorem delivered_eq {rs : List (Received α)} {s : List α} (h : Accounts rs s)
    (hl : lost rs = 0) : delivered rs = s := by
  have hlen : (delivered rs).length = s.length := by have := h.length_eq; omega
  exact h.delivered_sublist.eq_of_length hlen

end Accounts

/-- What a receiver takes part in: an event is sent, or it asks for the next thing. -/
inductive Signal (α : Type)
  | sent (a : α)
  | asks

namespace Signal

def event? : Signal α → Option α
  | sent a => some a
  | asks => none

end Signal

def sentBy (ss : List (Signal α)) : List α := ss.filterMap Signal.event?

@[simp] theorem sentBy_nil : sentBy ([] : List (Signal α)) = [] := rfl

@[simp] theorem sentBy_sent (a : α) (ss : List (Signal α)) :
    sentBy (.sent a :: ss) = a :: sentBy ss := rfl

@[simp] theorem sentBy_asks (ss : List (Signal α)) : sentBy (.asks :: ss) = sentBy ss := rfl

def look (capacity : Nat) (ahead : List α) : Received α × List α :=
  if capacity < ahead.length then
    (.lagged (ahead.length - capacity), ahead.drop (ahead.length - capacity))
  else
    match ahead with
    | [] => (.empty, [])
    | a :: r => (.event a, r)

/-- What a receiver is told, and what it has still to come at the end. -/
def hear (capacity : Nat) (ahead : List α) : List (Signal α) → List (Received α) × List α
  | [] => ([], ahead)
  | .sent a :: r => hear capacity (ahead ++ [a]) r
  | .asks :: r =>
    let (x, ahead) := look capacity ahead
    let (xs, ahead) := hear capacity ahead r
    (x :: xs, ahead)

theorem hear_append (capacity : Nat) (ahead : List α) (ss ts : List (Signal α)) :
    hear capacity ahead (ss ++ ts) =
      ((hear capacity ahead ss).1 ++ (hear capacity (hear capacity ahead ss).2 ts).1,
        (hear capacity (hear capacity ahead ss).2 ts).2) := by
  induction ss generalizing ahead with
  | nil => rfl
  | cons x r ih => cases x <;> simp [hear, ih]

theorem look_lagged {capacity : Nat} {ahead : List α} (h : capacity < ahead.length) :
    look capacity ahead =
      (.lagged (ahead.length - capacity), ahead.drop (ahead.length - capacity)) := if_pos h

@[simp] theorem look_nil (capacity : Nat) : look capacity ([] : List α) = (.empty, []) := rfl

theorem look_event {capacity : Nat} {a : α} {r : List α} (h : r.length < capacity) :
    look capacity (a :: r) = (.event a, r) :=
  if_neg (by simp only [List.length_cons]; omega)

theorem look_cases (capacity : Nat) (ahead : List α) :
    (capacity < ahead.length ∧ look capacity ahead =
      (.lagged (ahead.length - capacity), ahead.drop (ahead.length - capacity))) ∨
    (ahead = [] ∧ look capacity ahead = (.empty, [])) ∨
    (∃ a r, ahead = a :: r ∧ r.length < capacity ∧ look capacity ahead = (.event a, r)) := by
  by_cases h : capacity < ahead.length
  · exact .inl ⟨h, look_lagged h⟩
  · cases ahead with
    | nil => exact .inr (.inl ⟨rfl, rfl⟩)
    | cons a r =>
      have hr : r.length < capacity := by simp at h; omega
      exact .inr (.inr ⟨a, r, rfl, hr, look_event hr⟩)

theorem look_accounts (capacity : Nat) (ahead : List α) {rs : List (Received α)} {s : List α}
    (h : Accounts rs s) :
    ∃ past, ahead = past ++ (look capacity ahead).2 ∧
      Accounts ((look capacity ahead).1 :: rs) (past ++ s) := by
  obtain ⟨_, he⟩ | ⟨rfl, he⟩ | ⟨a, r, rfl, _, he⟩ := look_cases capacity ahead <;> rw [he]
  · refine ⟨ahead.take (ahead.length - capacity), (List.take_append_drop _ _).symm, ?_⟩
    have hl : (ahead.take (ahead.length - capacity)).length = ahead.length - capacity := by
      simp
    simpa only [hl] using Accounts.lagged (ahead.take (ahead.length - capacity)) h
  · exact ⟨[], rfl, .empty h⟩
  · exact ⟨[a], rfl, .event a h⟩

/-- What a receiver is told, with what it has still to come, is all that was ever sent. -/
theorem hear_accounts (capacity : Nat) (ahead : List α) (ss : List (Signal α)) :
    ∃ past, ahead ++ sentBy ss = past ++ (hear capacity ahead ss).2 ∧
      Accounts (hear capacity ahead ss).1 past := by
  induction ss generalizing ahead with
  | nil => exact ⟨[], by simp [hear], .nil⟩
  | cons x r ih =>
    cases x with
    | sent a =>
      obtain ⟨past, hp, ha⟩ := ih (ahead ++ [a])
      exact ⟨past, by simpa [hear] using hp, ha⟩
    | asks =>
      obtain ⟨later, hl, ha⟩ := ih (look capacity ahead).2
      obtain ⟨past, hp, hpa⟩ := look_accounts capacity ahead ha
      refine ⟨past ++ later, ?_, hpa⟩
      calc ahead ++ sentBy (.asks :: r)
          = past ++ ((look capacity ahead).2 ++ sentBy r) := by
            rw [sentBy_asks, ← List.append_assoc, ← hp]
        _ = past ++ later ++ (hear capacity ahead (.asks :: r)).2 := by
            rw [hl, List.append_assoc]; rfl

theorem hear_length (capacity : Nat) (ahead : List α) {ss : List (Signal α)}
    (hs : sentBy ss = []) : (hear capacity ahead ss).1.length = ss.length := by
  induction ss generalizing ahead with
  | nil => rfl
  | cons x r ih =>
    cases x with
    | sent a => simp at hs
    | asks => simpa [hear] using ih (look capacity ahead).2 (by simpa using hs)

theorem hear_quiet {capacity : Nat} {ahead : List α} {ss : List (Signal α)}
    (hc : ahead.length ≤ capacity) (hs : sentBy ss = []) :
    (hear capacity ahead ss).1.take ahead.length =
      (ahead.map Received.event).take (hear capacity ahead ss).1.length := by
  induction ss generalizing ahead with
  | nil => simp [hear]
  | cons x r ih =>
    cases x with
    | sent a => simp at hs
    | asks =>
      cases ahead with
      | nil => simp
      | cons a s =>
        have hl : look capacity (a :: s) = (.event a, s) := look_event hc
        have hr := @ih s (by simp at hc; omega) (by simpa using hs)
        simpa [hear, hl] using hr

/-- A receiver that never has more than the capacity to come misses nothing. -/
theorem hear_lossless {capacity : Nat} {ahead : List α} {ss : List (Signal α)}
    (h : ∀ pre, pre <+: ss → (hear capacity ahead pre).2.length ≤ capacity) :
    lost (hear capacity ahead ss).1 = 0 := by
  induction ss generalizing ahead with
  | nil => rfl
  | cons x r ih =>
    have hpre : ∀ pre, pre <+: r → (hear capacity ahead (x :: pre)).2.length ≤ capacity :=
      fun pre hp => h (x :: pre) (List.cons_prefix_cons.2 ⟨rfl, hp⟩)
    cases x with
    | sent a => exact ih hpre
    | asks =>
      have hrest := @ih (look capacity ahead).2 hpre
      have hnow : ahead.length ≤ capacity := h [] List.nil_prefix
      obtain ⟨hlt, _⟩ | ⟨rfl, he⟩ | ⟨a, s, rfl, _, he⟩ := look_cases capacity ahead
      · omega
      · simpa [hear, he, Received.skipped] using hrest
      · simpa [hear, he, Received.skipped] using hrest

/-- With nothing left to come, the last event heard of is the last one there was. -/
theorem hear_last {capacity : Nat} (hc : 0 < capacity) {ahead : List α} {ss : List (Signal α)}
    (hd : (hear capacity ahead ss).2 = []) (hne : ahead ++ sentBy ss ≠ []) :
    (delivered (hear capacity ahead ss).1).getLast? = (ahead ++ sentBy ss).getLast? := by
  -- A receiver that lags goes on from fewer events, so the induction is for all that may be ahead.
  induction ss generalizing ahead with
  | nil => simp [hear] at hd hne; exact absurd hd hne
  | cons x r ih =>
    cases x with
    | sent a => simpa [hear] using @ih (ahead ++ [a]) hd (by simp)
    | asks =>
      obtain ⟨hlt, he⟩ | ⟨rfl, he⟩ | ⟨a, s, rfl, _, he⟩ := look_cases capacity ahead
      · have hleft : ahead.drop (ahead.length - capacity) ≠ [] := by
          simp only [ne_eq, List.drop_eq_nil_iff]; omega
        have hr := @ih (ahead.drop (ahead.length - capacity)) (by simpa [hear, he] using hd)
          (by simp [hleft])
        have htold : delivered (hear capacity ahead (.asks :: r)).1 =
            delivered (hear capacity (ahead.drop (ahead.length - capacity)) r).1 := by
          simp [hear, he]
        have hlast : (ahead.drop (ahead.length - capacity)).getLast? = ahead.getLast? := by
          rw [List.getLast?_drop, if_neg (by omega)]
        rw [htold, hr, sentBy_asks, List.getLast?_append, List.getLast?_append, hlast]
      · simpa [hear, he] using @ih [] (by simpa [hear, he] using hd) (by simpa using hne)
      · have hd' : (hear capacity s r).2 = [] := by simpa [hear, he] using hd
        have htold : delivered (hear capacity (a :: s) (.asks :: r)).1 =
            a :: delivered (hear capacity s r).1 := by simp [hear, he]
        rw [htold, sentBy_asks]
        -- The event it got is the last one if nothing else is ahead or sent later.
        by_cases hrest : s ++ sentBy r = []
        · obtain ⟨past, hp, ha⟩ := hear_accounts capacity s r
          have hnone : delivered (hear capacity s r).1 = [] := by
            have : past = [] := by simpa [hrest, hd'] using hp.symm
            exact List.sublist_nil.1 (this ▸ ha.delivered_sublist)
          rw [List.cons_append, hrest, hnone]
        · rw [List.cons_append, List.getLast?_cons, List.getLast?_cons, ih hd' hrest]

end SearchRelay.Broadcast
