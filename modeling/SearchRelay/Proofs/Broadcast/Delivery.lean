import Mathlib.Data.List.Induction
import Mathlib.Data.Set.Card
import Mathlib.Order.Bounds.Basic
import SearchRelay.Proofs.Broadcast.Run

namespace SearchRelay

/-- The room of a broadcast is the smallest power of two that is large enough. -/
theorem roundUpPower_isLeast {n : Nat} (hn : 1 ≤ n) :
    IsLeast {m | (∃ k, m = 2 ^ k) ∧ n ≤ m} (roundUpPower n) := by
  unfold roundUpPower
  split
  · rename_i h
    exact ⟨⟨⟨0, rfl⟩, h⟩, fun m hm => hn.trans hm.2⟩
  · rename_i h
    refine ⟨⟨⟨_, rfl⟩, ?_⟩, ?_⟩
    · have hlog : n - 1 < 2 ^ ((n - 1).log2 + 1) := Nat.lt_log2_self
      change n ≤ 2 ^ ((n - 1).log2 + 1)
      omega
    · rintro m ⟨⟨k, rfl⟩, hk⟩
      have hself : 2 ^ (n - 1).log2 ≤ n - 1 := Nat.log2_self_le (by omega)
      have hpow : 2 ^ (n - 1).log2 < 2 ^ k := by omega
      have hlog : (n - 1).log2 < k := (Nat.pow_lt_pow_iff_right Nat.one_lt_two).1 hpow
      exact Nat.pow_le_pow_right (by omega) hlog

namespace Broadcast

theorem ofCapacity_ok {α : Type} {capacity : Nat} (hc : capacity ≤ maxCapacity) :
    ∃ fresh : Broadcast α, ofCapacity capacity = .ok fresh ∧
      IsLeast {m | (∃ k, m = 2 ^ k) ∧ max capacity 1 ≤ m} fresh.capacity ∧
      0 < fresh.capacity ∧ fresh.hasBroadcaster ∧ fresh.receivers = [] := by
  have hleast := roundUpPower_isLeast (Nat.le_max_right capacity 1)
  exact ⟨_, if_neg (Nat.not_lt.2 hc), hleast, (Nat.le_max_right capacity 1).trans hleast.1.2,
    rfl, rfl⟩

/-- A receiver that came in the course of some actions and is still there. Receivers are numbered
as they come. -/
def Lives (i : Nat) (as : List Action) : Prop :=
  ∃ before after, as = before ++ .subscribe :: after ∧
    before.countP Action.isSubscribe = i ∧ .dropReceiver i ∉ after

theorem not_lives_nil (i : Nat) : ¬ Lives i [] := by
  rintro ⟨before, after, h, -⟩
  simp at h

theorem lives_concat {i : Nat} {as : List Action} {a : Action} :
    Lives i (as ++ [a]) ↔
      (Lives i as ∧ a ≠ .dropReceiver i) ∨ (a = .subscribe ∧ i = as.countP Action.isSubscribe) := by
  constructor
  · rintro ⟨before, after, he, hi, hd⟩
    rcases List.eq_nil_or_concat after with rfl | ⟨rest, x, rfl⟩
    · obtain ⟨rfl, ha⟩ := List.append_inj' he rfl
      exact .inr ⟨List.singleton_inj.1 ha, hi.symm⟩
    · rw [List.concat_eq_append] at he hd
      rw [← List.cons_append, ← List.append_assoc] at he
      obtain ⟨rfl, ha⟩ := List.append_inj' he rfl
      obtain rfl := List.singleton_inj.1 ha
      simp only [List.mem_append, List.mem_singleton, not_or] at hd
      exact .inl ⟨⟨before, rest, rfl, hi, hd.1⟩, Ne.symm hd.2⟩
  · rintro (⟨⟨before, after, rfl, hi, hd⟩, ha⟩ | ⟨rfl, rfl⟩)
    · refine ⟨before, after ++ [a], by simp, hi, ?_⟩
      simpa [hd] using Ne.symm ha
    · exact ⟨as, [], rfl, rfl, by simp⟩

theorem act_receivers_length (b : Broadcast Emit) (a : Action) :
    (b.act a).2.receivers.length = b.receivers.length + [a].countP Action.isSubscribe := by
  cases a with
  | subscribe => simp [act, subscribe, Action.isSubscribe]
  | send e => rfl
  | emit event payload => cases payload <;> rfl
  | receive j => simp only [act, receive]; split <;> simp [Action.isSubscribe]
  | dropReceiver j => simp [act, dropReceiver, Action.isSubscribe]

theorem run_receivers_length (b : Broadcast Emit) (as : List Action) :
    (b.run as).2.receivers.length = b.receivers.length + as.countP Action.isSubscribe := by
  induction as generalizing b with
  | nil => rfl
  | cons a as ih =>
    rw [run_cons, ih, act_receivers_length, Nat.add_assoc, ← List.countP_append]
    rfl

theorem act_hasReceiver (b : Broadcast Emit) (a : Action) (i : Nat) :
    (b.act a).2.hasReceiver i ↔
      (b.hasReceiver i ∧ a ≠ .dropReceiver i) ∨ (a = .subscribe ∧ i = b.receivers.length) := by
  cases a with
  | subscribe =>
    simp only [act, subscribe, hasReceiver, List.getD_eq_getElem?_getD, List.getElem?_append]
    rcases Nat.lt_trichotomy i b.receivers.length with hi | rfl | hi
    · simp [hi, Nat.ne_of_lt hi]
    · simp
    · have hnew : [some b.sent][i - b.receivers.length]? = none :=
        List.getElem?_eq_none (by simp; omega)
      simp [Nat.not_lt_of_gt hi, Nat.ne_of_gt hi, hnew]
  | send e => simp [act, send, hasReceiver]
  | emit event payload => cases payload <;> simp [act, emit, send, hasReceiver]
  | receive j =>
    simp only [act, receive]
    split
    · simp
    · rename_i p hp
      rw [List.getD_eq_getElem?_getD] at hp
      by_cases hj : j = i
      · subst j
        by_cases hl : i < b.receivers.length <;>
          simp_all [hasReceiver, List.getD_eq_getElem?_getD]
      · simp [hasReceiver, List.getD_eq_getElem?_getD, List.getElem?_set_ne hj]
  | dropReceiver j =>
    by_cases hj : j = i
    · subst i
      by_cases hl : j < b.receivers.length <;>
        simp [act, dropReceiver, hasReceiver, List.getD_eq_getElem?_getD, hl]
    · simp [act, dropReceiver, hasReceiver, List.getD_eq_getElem?_getD, List.getElem?_set_ne hj, hj]

theorem run_receivers (b : Broadcast Emit) (hb : b.receivers = []) (as : List Action) :
    (b.run as).2.receivers.length = as.countP Action.isSubscribe ∧
      ∀ i, (b.run as).2.hasReceiver i ↔ Lives i as := by
  have hl (as : List Action) : (b.run as).2.receivers.length = as.countP Action.isSubscribe := by
    rw [run_receivers_length, hb, List.length_nil, Nat.zero_add]
  refine ⟨hl as, fun i => ?_⟩
  -- From the end, since the last action decides who joins the others or goes.
  induction as using List.reverseRec with
  | nil => simp [hb, hasReceiver, not_lives_nil]
  | append_singleton as a ih =>
    have hrun : (b.run (as ++ [a])).2 = ((b.run as).2.act a).2 := by
      rw [run_append, run_cons, run_nil]
    rw [hrun, act_hasReceiver, lives_concat, ih, hl as]

theorem receiverCount_eq_ncard (b : Broadcast Emit) :
    b.receiverCount = {i | b.hasReceiver i}.ncard := by
  have hset : {i | b.hasReceiver i} =
      ((Finset.range b.receivers.length).filter fun i => b.hasReceiver i : Finset Nat) := by
    ext i
    by_cases hi : i < b.receivers.length <;>
      simp [hasReceiver, List.getD_eq_getElem?_getD, hi]
  rw [hset, Set.ncard_coe_finset, Finset.card_filter]
  unfold receiverCount hasReceiver
  induction b.receivers using List.reverseRec with
  | nil => rfl
  | append_singleton l x ih =>
    have hold : ∀ i ∈ Finset.range l.length, (l ++ [x]).getD i none = l.getD i none := by
      intro i hi
      rw [List.getD_eq_getElem?_getD, List.getD_eq_getElem?_getD,
        List.getElem?_append_left (Finset.mem_range.1 hi)]
    rw [List.countP_append, ih, List.length_append, List.length_singleton,
      Finset.sum_range_succ]
    congr 1
    · exact Finset.sum_congr rfl fun i hi => by rw [hold i hi]
    · cases x <;> simp

def told (b : Broadcast Emit) (after : List Action) : List (Received Emit) :=
  heardBy b.subscribe.1 (b.subscribe.2.run after).1

theorem told_append_run (b : Broadcast Emit) (after more : List Action) :
    told b (after ++ more) =
      told b after ++ heardBy b.subscribe.1 ((b.subscribe.2.run after).2.run more).1 := by
  rw [told, run_append, heardBy_append]
  rfl

/-- How many events a new receiver then knows of: those it got, and those it was told it missed. -/
def accounted (b : Broadcast Emit) (after : List Action) : Nat :=
  (delivered (told b after)).length + lost (told b after)

def backlog (b : Broadcast Emit) (after : List Action) : Nat :=
  (eventsOf after).length - accounted b after

def next (b : Broadcast Emit) (after : List Action) : Option (Received Emit) :=
  ((b.subscribe.2.run after).2.receive b.subscribe.1).1

/-- What a new receiver can rely on while some actions happen, among which it is not dropped. -/
structure ReceiverLaw (capacity : Nat) (b : Broadcast Emit) (after : List Action) : Prop where
  accounted_le : accounted b after ≤ (eventsOf after).length
  accounts : Accounts (told b after) ((eventsOf after).take (accounted b after))
  in_order : (delivered (told b after)).Sublist (eventsOf after)
  pending : backlog b after = 0 → next b after = some .empty
  next_event : 0 < backlog b after → backlog b after ≤ capacity →
    ∃ e, (eventsOf after)[accounted b after]? = some e ∧ next b after = some (.event e)
  next_lagged : capacity < backlog b after →
    next b after = some (.lagged (backlog b after - capacity))
  /-- After it was told what it missed, and with nothing sent since, it gets the newest events. -/
  catches_up : capacity < backlog b after → ∀ more, .dropReceiver b.subscribe.1 ∉ more →
    eventsOf more = [] →
    ∃ later, told b (after ++ .receive b.subscribe.1 :: more) =
        told b after ++ .lagged (backlog b after - capacity) :: later ∧
      later.length = (signals b.subscribe.1 more).length ∧
      later.take capacity = (((eventsOf after).drop ((eventsOf after).length - capacity)).map
        Received.event).take later.length
  lossless : (∀ pre, pre <+: after → backlog b pre ≤ capacity) → lost (told b after) = 0 ∧
    delivered (told b after) = (eventsOf after).take (accounted b after)

section

variable {b : Broadcast Emit} {after : List Action}

theorem told_tracks (there : b.hasBroadcaster) (room : 0 < b.capacity)
    (hd : Action.dropReceiver b.subscribe.1 ∉ after) :
    told b after = (hear b.capacity [] (signals b.subscribe.1 after)).1 ∧
      Tracks (b.subscribe.2.run after).2 b.subscribe.1
        (hear b.capacity [] (signals b.subscribe.1 after)).2 :=
  run_tracks (.subscribe there room) hd

theorem told_accounts (there : b.hasBroadcaster) (room : 0 < b.capacity)
    (hd : Action.dropReceiver b.subscribe.1 ∉ after) :
    accounted b after ≤ (eventsOf after).length ∧
      Accounts (told b after) ((eventsOf after).take (accounted b after)) ∧
      (hear b.capacity [] (signals b.subscribe.1 after)).2 =
        (eventsOf after).drop (accounted b after) := by
  obtain ⟨past, hp, ha⟩ := hear_accounts b.capacity [] (signals b.subscribe.1 after)
  rw [← (told_tracks there room hd).1] at ha
  rw [List.nil_append, sentBy_signals] at hp
  have hlen : past.length = accounted b after := ha.length_eq
  rw [hp, ← hlen, List.take_left, List.drop_left, List.length_append]
  exact ⟨Nat.le_add_right _ _, ha, rfl⟩

theorem tracks_ahead (there : b.hasBroadcaster) (room : 0 < b.capacity)
    (hd : Action.dropReceiver b.subscribe.1 ∉ after) :
    Tracks (b.subscribe.2.run after).2 b.subscribe.1
      ((eventsOf after).drop (accounted b after)) := by
  rw [← (told_accounts there room hd).2.2]
  exact (told_tracks there room hd).2

theorem next_eq_look (there : b.hasBroadcaster) (room : 0 < b.capacity)
    (hd : Action.dropReceiver b.subscribe.1 ∉ after) :
    next b after = some (look b.capacity ((eventsOf after).drop (accounted b after))).1 := by
  rw [next, (tracks_ahead there room hd).receive.1, run_capacity]
  rfl

theorem told_append (there : b.hasBroadcaster) (room : 0 < b.capacity) {more : List Action}
    (hd : Action.dropReceiver b.subscribe.1 ∉ after)
    (hm : Action.dropReceiver b.subscribe.1 ∉ more) :
    told b (after ++ more) = told b after ++
      (hear b.capacity ((eventsOf after).drop (accounted b after))
        (signals b.subscribe.1 more)).1 := by
  have hboth : Action.dropReceiver b.subscribe.1 ∉ after ++ more := by simp [hd, hm]
  rw [(told_tracks there room hboth).1, (told_tracks there room hd).1,
    ← (told_accounts there room hd).2.2, signals, List.filterMap_append, hear_append]
  rfl

/-- A receiver that learns how much it missed has the newest events ahead of it. -/
theorem told_catches_up (there : b.hasBroadcaster) (room : 0 < b.capacity)
    (hd : Action.dropReceiver b.subscribe.1 ∉ after) (hl : b.capacity < backlog b after)
    {more : List Action} (hm : Action.dropReceiver b.subscribe.1 ∉ more)
    (hq : eventsOf more = []) :
    ∃ later, told b (after ++ .receive b.subscribe.1 :: more) =
        told b after ++ .lagged (backlog b after - b.capacity) :: later ∧
      later.length = (signals b.subscribe.1 more).length ∧
      later.take b.capacity = (((eventsOf after).drop ((eventsOf after).length - b.capacity)).map
        Received.event).take later.length := by
  have hlen : ((eventsOf after).drop (accounted b after)).length = backlog b after :=
    List.length_drop
  have hlook := look_lagged (hlen.symm ▸ hl : b.capacity < _)
  have hbehind : accounted b after + (backlog b after - b.capacity) =
      (eventsOf after).length - b.capacity := by
    have := (told_accounts there room hd).1
    unfold backlog at hl ⊢
    omega
  rw [hlen, List.drop_drop, hbehind] at hlook
  have hsigs : signals b.subscribe.1 (.receive b.subscribe.1 :: more) =
      .asks :: signals b.subscribe.1 more := by
    simp [signals, Action.signal?]
  have hsent : sentBy (signals b.subscribe.1 more) = [] := by rw [sentBy_signals, hq]
  have hnew : ((eventsOf after).drop ((eventsOf after).length - b.capacity)).length =
      b.capacity := by
    rw [List.length_drop]
    unfold backlog at hl
    omega
  refine ⟨(hear b.capacity ((eventsOf after).drop ((eventsOf after).length - b.capacity))
    (signals b.subscribe.1 more)).1, ?_, hear_length b.capacity _ hsent, ?_⟩
  · rw [told_append there room hd (by simp [hm]), hsigs, hear, hlook]
  · have hquiet := hear_quiet (Nat.le_of_eq hnew) hsent
    rwa [hnew] at hquiet

theorem told_lossless (there : b.hasBroadcaster) (room : 0 < b.capacity)
    (hd : Action.dropReceiver b.subscribe.1 ∉ after)
    (h : ∀ pre, pre <+: after → backlog b pre ≤ b.capacity) : lost (told b after) = 0 := by
  rw [(told_tracks there room hd).1]
  apply hear_lossless
  intro pre hpre
  obtain ⟨pre, hp, rfl⟩ := List.prefix_filterMap_iff.1 hpre
  have hdp : Action.dropReceiver b.subscribe.1 ∉ pre := fun hm => hd (hp.subset hm)
  have hlen := h pre hp
  rw [show pre.filterMap (Action.signal? b.subscribe.1) = signals b.subscribe.1 pre from rfl,
    (told_accounts there room hdp).2.2, List.length_drop]
  exact hlen

theorem receiver_law (there : b.hasBroadcaster) (room : 0 < b.capacity)
    (hd : Action.dropReceiver b.subscribe.1 ∉ after) : ReceiverLaw b.capacity b after := by
  obtain ⟨hle, hacc, -⟩ := told_accounts there room hd
  have hnext := next_eq_look there room hd
  have hlen : ((eventsOf after).drop (accounted b after)).length = backlog b after :=
    List.length_drop
  constructor
  case accounted_le => exact hle
  case accounts => exact hacc
  case in_order => exact hacc.delivered_sublist.trans (List.take_sublist _ _)
  case pending =>
    intro h0
    rw [hnext, List.length_eq_zero_iff.1 (hlen.trans h0)]
    rfl
  case next_event =>
    intro hpos hc
    have hi : accounted b after < (eventsOf after).length := by unfold backlog at hpos; omega
    refine ⟨(eventsOf after)[accounted b after], List.getElem?_eq_getElem hi, ?_⟩
    rw [hnext, List.drop_eq_getElem_cons hi, look_event]
    rw [List.length_drop]
    unfold backlog at hc
    omega
  case next_lagged =>
    intro hl
    rw [hnext, look_lagged (hlen.symm ▸ hl), hlen]
  case catches_up => exact fun hl more hm hq => told_catches_up there room hd hl hm hq
  case lossless =>
    intro h
    have hnone := told_lossless there room hd h
    exact ⟨hnone, hacc.delivered_eq hnone⟩

end

/-- What a broadcast is to everybody who uses it. -/
structure DeliveryLaw (fresh : Broadcast Emit) : Prop where
  reaches (before : List Action) (e : Emit) :
    ((fresh.run before).2.send e).1 = {i | Lives i before}.ncard
  emits (before : List Action) (event : String) (data : Json.Value) :
    (fresh.run before).2.emit event (.ok data) =
      (((fresh.run before).2.send ⟨event, data⟩).1, ((fresh.run before).2.send ⟨event, data⟩).2, [])
  /-- A payload without one changes nothing. -/
  refuses (before : List Action) (event : String) (e : PayloadError) :
    (fresh.run before).2.emit event (.error e) = (0, (fresh.run before).2, [e.toLog event])
  serves (before after : List Action) :
    Action.dropReceiver (fresh.run before).2.subscribe.1 ∉ after →
      ReceiverLaw fresh.capacity (fresh.run before).2 after
  independent (before before' after after' : List Action) :
    Action.dropReceiver (fresh.run before).2.subscribe.1 ∉ after →
    Action.dropReceiver (fresh.run before').2.subscribe.1 ∉ after' →
    signals (fresh.run before).2.subscribe.1 after =
      signals (fresh.run before').2.subscribe.1 after' →
    told (fresh.run before).2 after = told (fresh.run before').2 after'

/-- Every capacity that can be asked for gives a broadcast that keeps its law. -/
theorem delivery_law {capacity : Nat} (hc : capacity ≤ maxCapacity) :
    ∃ fresh : Broadcast Emit, ofCapacity capacity = .ok fresh ∧
      IsLeast {m | (∃ k, m = 2 ^ k) ∧ max capacity 1 ≤ m} fresh.capacity ∧ DeliveryLaw fresh := by
  obtain ⟨fresh, hf, hleast, room, there, hnone⟩ := @ofCapacity_ok Emit _ hc
  refine ⟨fresh, hf, hleast, ?_⟩
  have room' (before : List Action) : 0 < (fresh.run before).2.capacity := by simpa using room
  have there' (before : List Action) : (fresh.run before).2.hasBroadcaster := by simpa using there
  constructor
  case reaches =>
    intro before e
    have hset : {i | (fresh.run before).2.hasReceiver i} = {i | Lives i before} := by
      ext i
      exact (run_receivers fresh hnone before).2 i
    rw [← hset, ← receiverCount_eq_ncard]
    rfl
  case emits => exact fun _ _ _ => rfl
  case refuses => exact fun _ _ _ => rfl
  case serves =>
    intro before after hd
    simpa using receiver_law (there' before) (room' before) hd
  case independent =>
    intro before before' after after' hd hd' hs
    rw [(told_tracks (there' before) (room' before) hd).1,
      (told_tracks (there' before') (room' before') hd').1, hs, run_capacity, run_capacity]

/-- Five events for a receiver that does not listen, of which two are kept. -/
theorem delivery_law_two :
    2 ≤ maxCapacity ∧ ∃ fresh : Broadcast Emit, ofCapacity 2 = .ok fresh ∧
      next fresh ((List.range 5).map fun n => .emit "tick" (.ok (.nat n))) =
        some (.lagged 3) := by
  obtain ⟨fresh, hf, -, law⟩ := @delivery_law 2 (by decide)
  obtain rfl : { capacity := 2 } = fresh := Except.ok.inj hf
  refine ⟨by decide, _, hf, ?_⟩
  exact (law.serves [] _ (by simp)).next_lagged (by decide)

end Broadcast

end SearchRelay
