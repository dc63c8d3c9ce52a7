import Mathlib.Data.List.Induction
import SearchRelay.Proofs.Trace
import SearchRelay.StopLatch

/-!
Everybody at a latch, one step of one of them after another in any order: those who ask for a stop,
those who wait for it and those who only look. One of the requests is the first, and nobody sleeps
on when the flag is set and those who set it have notified the others.
-/

namespace SearchRelay

namespace Waiter

/-- Sleeps or goes to sleep, and no notification is there that would end it. -/
def isAsleep : Waiter → Bool
  | resigned notified | parked notified => !notified
  | _ => false

/-- How many steps of its own a waiter is from its return when the flag is set. -/
def toGo : Waiter → Nat
  | resigned _ | parked _ => 3
  | arriving => 2
  | listening _ => 1
  | released | cancelled => 0

theorem toGo_le (w : Waiter) : w.toGo ≤ 3 := by
  cases w <;> simp [toGo]

theorem notify_awake (w : Waiter) : w.notify.isAsleep = false := by
  cases w <;> rfl

theorem step_awake {w : Waiter} (h : w.isAsleep = false) : (w.step true).isAsleep = false := by
  cases w with
  | resigned notified | parked notified =>
    obtain rfl : notified = true := by simpa [isAsleep] using h
    rfl
  | _ => rfl

theorem step_toGo {w : Waiter} (h : w.isAsleep = false) : (w.step true).toGo = w.toGo - 1 := by
  cases w with
  | resigned notified | parked notified =>
    obtain rfl : notified = true := by simpa [isAsleep] using h
    rfl
  | _ => rfl

theorem step_ne_cancelled {w : Waiter} (requested : Bool) (h : w ≠ .cancelled) :
    w.step requested ≠ .cancelled := by
  cases w with
  | listening notified => cases requested <;> exact Waiter.noConfusion
  | resigned notified | parked notified => cases notified <;> exact Waiter.noConfusion
  | cancelled => exact absurd rfl h
  | _ => exact Waiter.noConfusion

theorem notify_toGo (w : Waiter) : w.notify.toGo = w.toGo := by
  cases w <;> rfl

theorem notify_eq_iff {w v : Waiter} (h : v = .released ∨ v = .cancelled) :
    w.notify = v ↔ w = v := by
  rcases h with rfl | rfl <;> cases w <;> simp [notify]

theorem released_of_toGo {w : Waiter} (h : w.toGo = 0) (hc : w ≠ .cancelled) : w = .released := by
  cases w <;> simp_all [toGo]

theorem settle_released {w : Waiter} (h : w.isAsleep = false) (hc : w ≠ .cancelled) :
    w.settle true = .released := by
  cases w with
  | resigned notified | parked notified =>
    obtain rfl : notified = true := by simpa [isAsleep] using h
    rfl
  | cancelled => exact absurd rfl hc
  | _ => rfl

theorem step_released {w : Waiter} (h : w.step requested = .released) :
    w = .released ∨ requested := by
  cases w with
  | released => exact .inl rfl
  | listening notified =>
    cases requested with
    | true => exact .inr rfl
    | false => cases h
  | resigned notified | parked notified => cases notified <;> cases h
  | _ => cases h

end Waiter

namespace StopLatch

/-- A call for a stop, between whose two halves anything may happen. -/
inductive Request
  | swapped (first : Bool)
  | answered (first : Bool)
  deriving DecidableEq

def Request.first : Request → Bool
  | swapped first | answered first => first

inductive Action
  | wait
  | stepWaiter (i : Nat)
  | cancel (i : Nat)
  | swap
  | notify (r : Nat)
  | look
  deriving DecidableEq

/-- A latch with all who ever came to it. -/
structure Traffic where
  latch : StopLatch := {}
  requests : List Request := []

namespace Traffic

variable {t : Traffic}

def step (t : Traffic) : Action → Traffic
  | .wait => { t with latch := t.latch.wait.2 }
  | .stepWaiter i => { t with latch := t.latch.stepWaiter i }
  | .cancel i => { t with latch := t.latch.cancel i }
  | .swap => ⟨t.latch.swap.2, t.requests ++ [.swapped t.latch.swap.1]⟩
  | .notify r =>
    match t.requests[r]? with
    | some (.swapped first) => ⟨t.latch.notifyAll, t.requests.set r (.answered first)⟩
    | _ => t
  | .look => t

def returned (t : Traffic) : Action → List (Nat × Bool)
  | .notify r =>
    match t.requests[r]? with
    | some (.swapped first) => [(r, first)]
    | _ => []
  | _ => []

def after (t : Traffic) (as : List Action) : Traffic := as.foldl step t

def returns (t : Traffic) (as : List Action) : List (Nat × Bool) :=
  Trace.along step returned t as

def UnderWay (t : Traffic) : Prop := ∃ first, .swapped first ∈ t.requests

theorem after_append (t : Traffic) (as more : List Action) :
    t.after (as ++ more) = (t.after as).after more := List.foldl_append ..

theorem after_concat (t : Traffic) (as : List Action) (a : Action) :
    t.after (as ++ [a]) = (t.after as).step a := t.after_append as [a]

theorem returns_concat (t : Traffic) (as : List Action) (a : Action) :
    t.returns (as ++ [a]) = t.returns as ++ (t.after as).returned a := Trace.along_concat ..

inductive Stirs (t : Traffic) (i : Nat) : Action → Option Waiter → Option Waiter → Prop
  | same {a : Action} {w : Option Waiter} (other : w.isSome → a ≠ .stepWaiter i) : Stirs t i a w w
  | comes : Stirs t i .wait none (some .arriving)
  | steps (w : Waiter) : Stirs t i (.stepWaiter i) (some w) (some (w.step t.latch.requested))
  | leaves (w : Waiter) : Stirs t i (.cancel i) (some w) (some .cancelled)
  | notified (r : Nat) (w : Waiter) : Stirs t i (.notify r) (some w) (some w.notify)

theorem stirs (t : Traffic) (a : Action) (i : Nat) :
    Stirs t i a t.latch.waiters[i]? (t.step a).latch.waiters[i]? := by
  cases a with
  | wait =>
    simp only [step, wait]
    rcases Nat.lt_trichotomy i t.latch.waiters.length with hi | rfl | hi
    · rw [List.getElem?_append_left hi]
      exact .same fun _ => Action.noConfusion
    · simpa using Stirs.comes
    · rw [List.getElem?_eq_none (Nat.le_of_lt hi), List.getElem?_eq_none (by simp; omega)]
      exact .same fun _ => Action.noConfusion
  | stepWaiter j =>
    simp only [step, stepWaiter, List.getElem?_modify]
    by_cases hj : j = i
    · subst j
      cases t.latch.waiters[i]? with
      | none => exact .same (by simp)
      | some w => simpa using Stirs.steps w
    · have hsame : Stirs t i (.stepWaiter j) t.latch.waiters[i]? t.latch.waiters[i]? :=
        .same fun _ he => hj (Action.stepWaiter.inj he)
      simpa [hj] using hsame
  | cancel j =>
    have hsame : Stirs t i (.cancel j) t.latch.waiters[i]? t.latch.waiters[i]? :=
      .same fun _ => Action.noConfusion
    simp only [step, cancel, List.getElem?_modify]
    by_cases hj : j = i
    · subst j
      generalize t.latch.waiters[i]? = old at hsame
      cases old with
      | none => exact hsame
      | some w =>
        by_cases hf : w.isFinished
        · simpa [hf] using hsame
        · simpa [hf] using Stirs.leaves w
    · simpa [hj] using hsame
  | swap | look => exact .same fun _ => Action.noConfusion
  | notify r =>
    simp only [step]
    split
    · simp only [notifyAll, List.getElem?_map]
      cases t.latch.waiters[i]? with
      | none => exact .same (by simp)
      | some w => exact .notified r w
    · exact .same fun _ => Action.noConfusion

theorem step_requested (t : Traffic) (a : Action) :
    (t.step a).latch.requested ↔ t.latch.requested ∨ a = .swap := by
  cases a with
  | notify r =>
    simp only [step]
    split <;> simp [notifyAll]
  | _ => simp [step, wait, stepWaiter, cancel, swap]

theorem after_requested (h : t.latch.requested) (as : List Action) :
    (t.after as).latch.requested := by
  induction as generalizing t with
  | nil => exact h
  | cons a as ih => exact ih ((t.step_requested a).2 (.inl h))

theorem underWay_step (h : t.UnderWay) (a : Action) :
    (t.step a).UnderWay ∨ (t.step a).latch = t.latch.notifyAll := by
  obtain ⟨first, hfirst⟩ := h
  cases a with
  | swap => exact .inl ⟨first, List.mem_append_left _ hfirst⟩
  | notify r =>
    simp only [step]
    split
    · exact .inr rfl
    · exact .inl ⟨first, hfirst⟩
  | _ => exact .inl ⟨first, hfirst⟩

theorem underWay_swap (t : Traffic) : (t.step .swap).UnderWay :=
  ⟨_, List.mem_append_right _ (List.mem_singleton_self _)⟩

theorem Stirs.awake {i : Nat} {a : Action} {old new : Option Waiter} (h : Stirs t i a old new)
    (requested : t.latch.requested) (hold : ∀ w ∈ old, w.isAsleep = false) :
    ∀ w ∈ new, w.isAsleep = false := by
  cases h with
  | same => exact hold
  | comes | leaves => simp [Waiter.isAsleep]
  | steps w =>
    rw [requested]
    simpa using Waiter.step_awake (hold w rfl)
  | notified r w => simpa using w.notify_awake

/-- What is always so with the waiters. -/
structure Guarded (t : Traffic) : Prop where
  released : ∀ i : Nat, t.latch.waiters[i]? = some .released → t.latch.requested
  awake : t.latch.requested → ¬ t.UnderWay →
    ∀ i : Nat, ∀ w ∈ t.latch.waiters[i]?, w.isAsleep = false

theorem Guarded.step (g : Guarded t) (a : Action) : Guarded (t.step a) where
  released i hi := by
    rw [step_requested]
    have hs := t.stirs a i
    rw [hi] at hs
    generalize hold : t.latch.waiters[i]? = old at hs
    generalize hnew : some Waiter.released = new at hs
    cases hs with
    | same => exact .inl (g.released i (hold.trans hnew.symm))
    | steps w =>
      rcases Waiter.step_released (Option.some.inj hnew).symm with rfl | hr
      · exact .inl (g.released i hold)
      · exact .inl hr
    | notified r w =>
      have hw := (Waiter.notify_eq_iff (.inl rfl)).1 (Option.some.inj hnew).symm
      exact .inl (g.released i (hw ▸ hold))
    | comes | leaves => cases hnew
  awake hr hu i := by
    by_cases hold : t.UnderWay
    · rw [(underWay_step hold a).resolve_left hu]
      intro w hw
      obtain ⟨w, -, rfl⟩ : ∃ w', t.latch.waiters[i]? = some w' ∧ w'.notify = w := by
        simpa [notifyAll] using hw
      exact w.notify_awake
    · rcases (t.step_requested a).1 hr with hr | rfl
      · exact (t.stirs a i).awake hr (g.awake hr hold i)
      · exact absurd t.underWay_swap hu

def Returning (t : Traffic) (i n : Nat) : Prop :=
  ∃ w, t.latch.waiters[i]? = some w ∧ w.isAsleep = false ∧ w ≠ .cancelled ∧ w.toGo ≤ n

theorem Returning.step {i n : Nat} (h : Returning t i n) (requested : t.latch.requested)
    {a : Action} (ha : a ≠ .cancel i) :
    Returning (t.step a) i (n - [a].count (.stepWaiter i)) := by
  obtain ⟨w, hw, hawake, hcancelled, hle⟩ := h
  have hs := t.stirs a i
  rw [hw] at hs
  generalize hnew : (t.step a).latch.waiters[i]? = new at hs
  cases hs with
  | same other =>
    rw [List.count_singleton, if_neg (by simpa using other rfl)]
    exact ⟨w, hnew, hawake, hcancelled, hle⟩
  | steps w =>
    rw [requested] at hnew
    refine ⟨_, hnew, Waiter.step_awake hawake, Waiter.step_ne_cancelled true hcancelled, ?_⟩
    rw [Waiter.step_toGo hawake, List.count_singleton_self]
    exact Nat.sub_le_sub_right hle 1
  | notified r w =>
    refine ⟨_, hnew, w.notify_awake, mt (Waiter.notify_eq_iff (.inr rfl)).1 hcancelled, ?_⟩
    rw [Waiter.notify_toGo]
    exact hle
  | leaves => exact absurd rfl ha

theorem Returning.after {i n : Nat} (h : Returning t i n) (requested : t.latch.requested)
    {as : List Action} (has : .cancel i ∉ as) :
    Returning (t.after as) i (n - as.count (.stepWaiter i)) := by
  induction as generalizing t n with
  | nil => exact h
  | cons a as ih =>
    obtain ⟨ha, has⟩ := List.ne_and_not_mem_of_not_mem_cons has
    have hstep := h.step requested ha.symm
    have hrest := ih hstep ((t.step_requested a).2 (.inl requested)) has
    rwa [Nat.sub_sub, ← List.count_append] at hrest

structure Ranked (returned : List (Nat × Bool)) (t : Traffic) : Prop where
  flag : t.latch.requested ↔ t.requests ≠ []
  first : ∀ (r : Nat) (q : Request), t.requests[r]? = some q → (q.first ↔ r = 0)
  winner : returned.filter Prod.snd =
    if t.requests[0]? = some (.answered true) then [(0, true)] else []

theorem Ranked.swap {R : List (Nat × Bool)} (h : Ranked R t) : Ranked R (t.step .swap) where
  flag := by simp [step, StopLatch.swap]
  first r q hq := by
    simp only [step, StopLatch.swap] at hq
    rcases Nat.lt_trichotomy r t.requests.length with hr | rfl | hr
    · rw [List.getElem?_append_left hr] at hq
      exact h.first r q hq
    · obtain rfl : .swapped (!t.latch.requested) = q := by simpa using hq
      -- The flag was unset before the first request, and only then.
      have hflag := h.flag
      rw [List.length_eq_zero_iff]
      cases hreq : t.latch.requested <;> simp_all [Request.first]
    · rw [List.getElem?_eq_none (by simp; omega)] at hq
      cases hq
  winner := by
    rw [h.winner]
    cases hreq : t.requests <;> simp [step, StopLatch.swap, hreq]

theorem Ranked.answer {R : List (Nat × Bool)} (h : Ranked R t) {r : Nat} {first : Bool}
    (hr : t.requests[r]? = some (.swapped first)) :
    Ranked (R ++ [(r, first)]) ⟨t.latch.notifyAll, t.requests.set r (.answered first)⟩ where
  flag := by
    have hlatch : t.latch.notifyAll.requested = t.latch.requested := rfl
    rw [hlatch, h.flag]
    simp
  first k q hq := by
    by_cases hk : r = k
    · subst k
      have hlt := (List.getElem?_eq_some_iff.1 hr).1
      obtain rfl : .answered first = q := by simpa [hlt] using hq
      exact h.first r (.swapped first) hr
    · rw [List.getElem?_set_ne hk] at hq
      exact h.first k q hq
  winner := by
    have hfirst : first = true ↔ r = 0 := h.first r _ hr
    rw [List.filter_append, h.winner]
    by_cases h0 : r = 0
    · subst r
      obtain rfl : first = true := hfirst.2 rfl
      have hlt := (List.getElem?_eq_some_iff.1 hr).1
      rw [if_neg (by simp [hr])]
      simp [hlt]
    · obtain rfl : first = false := by simpa [h0] using hfirst
      simp [List.getElem?_set_ne h0]

theorem Ranked.step {R : List (Nat × Bool)} (h : Ranked R t) (a : Action) :
    Ranked (R ++ t.returned a) (t.step a) := by
  cases a with
  | swap => simpa [returned] using h.swap
  | notify r =>
    simp only [Traffic.step, returned]
    cases hr : t.requests[r]? with
    | none => simpa using h
    | some q =>
      cases q with
      | swapped first => exact h.answer hr
      | answered first => simpa using h
  | _ => simpa [returned] using ⟨h.flag, h.first, h.winner⟩

theorem step_waiters_length (t : Traffic) (a : Action) :
    (t.step a).latch.waiters.length = t.latch.waiters.length + [a].count .wait := by
  cases a with
  | notify r =>
    simp only [step]
    split <;> simp [notifyAll]
  | _ => simp [step, wait, stepWaiter, cancel, swap]

theorem after_waiters_length (t : Traffic) (as : List Action) :
    (t.after as).latch.waiters.length = t.latch.waiters.length + as.count .wait :=
  Trace.count_foldl step (fun t => t.latch.waiters.length) (· == .wait) step_waiters_length t as

theorem step_requests_length (t : Traffic) (a : Action) :
    (t.step a).requests.length = t.requests.length + [a].count .swap := by
  cases a with
  | swap => simp [step]
  | notify r =>
    simp only [step]
    split <;> simp
  | _ => rfl

theorem after_requests_length (t : Traffic) (as : List Action) :
    (t.after as).requests.length = t.requests.length + as.count .swap :=
  Trace.count_foldl step (fun t => t.requests.length) (· == .swap) step_requests_length t as

theorem guarded_run (as : List Action) : Guarded (({} : Traffic).after as) := by
  induction as using List.reverseRecOn with
  | nil => exact ⟨fun _ hi => (nomatch hi), fun hr => (nomatch hr)⟩
  | append_singleton as a ih =>
    rw [after_concat]
    exact ih.step a

theorem ranked_run (as : List Action) :
    Ranked (({} : Traffic).returns as) (({} : Traffic).after as) := by
  induction as using List.reverseRecOn with
  | nil => exact ⟨by simp [after], fun _ _ hq => (nomatch hq), rfl⟩
  | append_singleton as a ih =>
    rw [after_concat, returns_concat]
    exact ih.step a

/-- What everybody at a latch can rely on, at some moment. -/
structure LatchLaw (start : Traffic) (as : List Action) : Prop where
  numbered : (start.after as).requests.length = as.count .swap
  waiting : (start.after as).latch.waiters.length = as.count .wait
  first : ∀ (r : Nat) (q : Request), (start.after as).requests[r]? = some q → (q.first ↔ r = 0)
  winner : (start.returns as).filter Prod.snd =
    if (start.after as).requests[0]? = some (.answered true) then [(0, true)] else []
  answered : .swap ∈ as → ¬ (start.after as).UnderWay →
    (start.after as).requests[0]? = some (.answered true)
  flag : (start.after as).latch.requested ↔ .swap ∈ as
  latched (more : List Action) : (start.after as).latch.requested →
    (start.after (as ++ more)).latch.requested
  not_early (i : Nat) : (start.after as).latch.waiters[i]? = some .released → .swap ∈ as
  awake : (start.after as).latch.requested → ¬ (start.after as).UnderWay →
    ∀ w ∈ (start.after as).latch.waiters, w.isAsleep = false
  /-- A waiter that goes on by itself returns at once. -/
  returns : (start.after as).latch.requested → ¬ (start.after as).UnderWay →
    ∀ w ∈ (start.after as).latch.waiters, w ≠ .cancelled → w.settle true = .released
  /-- And it returns with its third step at the latest, whatever others do in between. -/
  returns_amid (i : Nat) (more : List Action) : (start.after as).latch.requested →
    ¬ (start.after as).UnderWay → ∀ w ∈ (start.after as).latch.waiters[i]?, w ≠ .cancelled →
      .cancel i ∉ more → 3 ≤ more.count (.stepWaiter i) →
        (start.after (as ++ more)).latch.waiters[i]? = some .released

theorem latch_law (as : List Action) : LatchLaw {} as := by
  have guarded := guarded_run as
  have ranked := ranked_run as
  have numbered : (({} : Traffic).after as).requests.length = as.count .swap := by
    rw [after_requests_length]
    exact Nat.zero_add _
  have waiting : (({} : Traffic).after as).latch.waiters.length = as.count .wait := by
    rw [after_waiters_length]
    exact Nat.zero_add _
  generalize ({} : Traffic) = start at guarded ranked numbered waiting
  have flag : (start.after as).latch.requested ↔ .swap ∈ as := by
    rw [ranked.flag, ← List.count_pos_iff, ← numbered, List.length_pos_iff]
  have awake (hr : (start.after as).latch.requested) (hu : ¬ (start.after as).UnderWay) :
      ∀ w ∈ (start.after as).latch.waiters, w.isAsleep = false := by
    intro w hw
    obtain ⟨i, hi⟩ := List.getElem?_of_mem hw
    exact guarded.awake hr hu i w hi
  constructor
  case numbered => exact numbered
  case waiting => exact waiting
  case first => exact ranked.first
  case winner => exact ranked.winner
  case answered =>
    intro hs hu
    have hlt : 0 < (start.after as).requests.length := numbered ▸ List.count_pos_iff.2 hs
    have hget := List.getElem?_eq_getElem hlt
    have hfirst := (ranked.first 0 _ hget).2 rfl
    rw [hget]
    cases hq : (start.after as).requests[0] with
    | swapped first => exact absurd ⟨first, hq ▸ List.getElem_mem hlt⟩ hu
    | answered first =>
      rw [hq] at hfirst
      obtain rfl : first = true := hfirst
      rfl
  case flag => exact flag
  case latched =>
    intro more hr
    rw [after_append]
    exact after_requested hr more
  case not_early => exact fun i hi => flag.1 (guarded.released i hi)
  case awake => exact awake
  case returns => exact fun hr hu w hw hc => Waiter.settle_released (awake hr hu w hw) hc
  case returns_amid =>
    intro i more hr hu w hw hc hmore hcount
    rw [after_append]
    obtain ⟨v, hv, -, hv', hgo⟩ :=
      Returning.after ⟨w, hw, guarded.awake hr hu i w hw, hc, w.toGo_le⟩ hr hmore
    have hzero : v.toGo = 0 := by omega
    rw [hv, Waiter.released_of_toGo hzero hv']

/-- The flag is set, and the others are notified, between a waiter's look at it and its sleep. -/
example : (({} : Traffic).after [.wait, .stepWaiter 0, .stepWaiter 0, .swap, .notify 0,
    .stepWaiter 0, .stepWaiter 0, .stepWaiter 0]).latch.waiters = [.released] := rfl

end Traffic

end StopLatch

end SearchRelay
