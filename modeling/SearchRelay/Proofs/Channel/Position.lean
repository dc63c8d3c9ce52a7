import SearchRelay.Proofs.Broadcast.Record
import SearchRelay.Proofs.Channel.Reading

/-!
Where every channel stands among the events. No two channels share a receiver, so a channel moves on
only when it looks for an event itself.
-/

namespace SearchRelay

open Broadcast (Action Glance Passes Received Recorded eventsOf)

namespace SessionPhase

inductive Shift (capacity : Nat) (es : List Emit) (position : Nat) :
    List (Received Emit) → Nat → Prop
  | rests : Shift capacity es position [] position
  | looks {r : Received Emit} {next : Nat} (glance : Glance capacity es position r next) :
      Shift capacity es position [r] next

variable {relay relay' : Relay} {phase phase' : SessionPhase} {input : SessionInput}
  {frames : List Frame} {uses : List Action} {es : List Emit} {i p : Nat}

theorem Shift.le_length {capacity next : Nat} {rs : List (Received Emit)}
    (h : Shift capacity es p rs next) (hp : p ≤ es.length) : next ≤ es.length := by
  cases h with
  | rests => exact hp
  | looks glance => exact glance.le_length

theorem hears_cases (relay : Relay) (phase : SessionPhase) (input : SessionInput) :
    phase.hears relay input = [] ∨
      ∃ i, phase.receiver? = some i ∧
        phase.hears relay input = (relay.events.receive i).1.toList := by
  unfold hears
  split
  · rename_i i client sent
    exact .inr ⟨i, rfl, rfl⟩
  · exact .inl rfl

/-- What a receiver is told decides where it is then, unless its channel ends with that. -/
theorem Turn.shift (t : Turn relay phase input phase' relay' frames uses)
    (recorded : Recorded relay.events es) (hi : phase.receiver? = some i)
    (hp : relay.events.position? i = some p) (hle : p ≤ es.length) :
    ∃ next, Shift relay.events.capacity es p (phase.hears relay input) next ∧
      (phase' = .ended ∨
        (phase'.receiver? = some i ∧ relay'.events.position? i = some next)) := by
  obtain ⟨r, next, hr, hnext, glance⟩ := recorded.receive hp hle
  have silent (h : phase.hears relay input = []) (hi' : phase'.receiver? = some i)
      (he : relay'.events = relay.events) :
      ∃ next, Shift relay.events.capacity es p (phase.hears relay input) next ∧
        (phase' = .ended ∨
          (phase'.receiver? = some i ∧ relay'.events.position? i = some next)) :=
    ⟨p, h ▸ .rests, .inr ⟨hi', he ▸ hp⟩⟩
  have looking (h : phase.hears relay input = (relay.events.receive i).1.toList) :
      Shift relay.events.capacity es p (phase.hears relay input) next := by
    rw [h, hr]
    exact .looks glance
  cases t with
  | subscribe => exact nomatch hi
  | connect j client => exact silent rfl hi rfl
  | greet j client => exact silent rfl hi rfl
  | pong j client payload => exact silent rfl hi rfl
  | event j client e h =>
    obtain rfl : j = i := Option.some.inj hi
    exact ⟨next, looking rfl, .inr ⟨hi, hnext⟩⟩
  | skip j client sent h =>
    obtain rfl : j = i := Option.some.inj hi
    exact ⟨next, looking rfl, .inr ⟨hi, hnext⟩⟩
  | leave =>
    rcases hears_cases relay phase input with h | ⟨j, hj, h⟩
    · exact ⟨p, h ▸ .rests, .inl rfl⟩
    · obtain rfl : j = i := Option.some.inj (hj.symm.trans hi)
      exact ⟨next, looking h, .inl rfl⟩
  | rest phase input deaf => exact silent deaf hi rfl

theorem Turn.position?_eq (t : Turn relay phase input phase' relay' frames [.subscribe])
    (recorded : Recorded relay.events es) :
    relay'.events.position? relay.events.receivers.length = some es.length := by
  have he : relay'.events = relay.events.subscribe.2 := t.events_eq
  rw [he, ← recorded.sent]
  exact Broadcast.subscribe_position? relay.events

end SessionPhase

namespace World

def position? (w : World) (j : Nat) : Option Nat :=
  (w.phase j).receiver?.bind w.events.position?

def hears (j : Nat) (w : World) : Act → List (Received Emit)
  | .session k input => if k = j then (w.phase k).hears w.relay input else []
  | _ => []

def history (w : World) (acts : List Act) : List Emit :=
  (w.along emitted acts).map ControllerEvent.toEmit

/-- A world after some events, in which every channel stands somewhere among them. -/
structure Seated (es : List Emit) (w : World) : Prop where
  recorded : Recorded w.events es
  numbered : w.Numbered
  apart : ∀ j k i, (w.phase j).receiver? = some i → (w.phase k).receiver? = some i → j = k
  held : ∀ j i, (w.phase j).receiver? = some i →
    ∃ p, w.events.position? i = some p ∧ p ≤ es.length

section

variable {w : World} {es : List Emit}

theorem history_cons (w : World) (a : Act) (acts : List Act) : w.history (a :: acts) =
    (w.emitted a).map ControllerEvent.toEmit ++ (w.step a).history acts := List.map_append

theorem history_append (w : World) (acts more : List Act) :
    w.history (acts ++ more) = w.history acts ++ (w.after acts).history more := by
  rw [history, along_append, List.map_append]
  rfl

theorem history_concat (w : World) (acts : List Act) (a : Act) : w.history (acts ++ [a]) =
    w.history acts ++ ((w.after acts).emitted a).map ControllerEvent.toEmit := by
  rw [history, along_concat, List.map_append]
  rfl

theorem position?_eq {j i p : Nat} (hi : (w.phase j).receiver? = some i)
    (hp : w.events.position? i = some p) : w.position? j = some p := by
  rw [position?, hi]
  exact hp

theorem receiver?_of_position? {j p : Nat} (h : w.position? j = some p) :
    ∃ i, (w.phase j).receiver? = some i ∧ w.events.position? i = some p :=
  Option.bind_eq_some_iff.1 h

theorem Seated.le_length {j p : Nat} (h : Seated es w) (hp : w.position? j = some p) :
    p ≤ es.length := by
  obtain ⟨i, hi, hp⟩ := receiver?_of_position? hp
  obtain ⟨q, hq, hle⟩ := h.held j i hi
  obtain rfl : p = q := Option.some.inj (hp.symm.trans hq)
  exact hle

theorem recorded_step (h : Recorded w.events es) (a : Act) :
    Recorded (w.step a).events (es ++ (w.emitted a).map ControllerEvent.toEmit) := by
  cases a with
  | move m =>
    have hsends : eventsOf ((w.announced m).map fun e => Action.send e.toEmit) =
        (w.announced m).map ControllerEvent.toEmit := by
      simp [eventsOf, List.filterMap_map, Function.comp_def, Action.event?]
    have hrun := h.run ((w.announced m).map fun e => Action.send e.toEmit)
    rw [hsends] at hrun
    exact hrun
  | arrive => exact h.run []
  | close => exact h.run []
  | session j input =>
    obtain ⟨uses, turn⟩ := SessionPhase.turn_of_step w.relay (w.phase j) input
    have hevents : (w.step (.session j input)).events = (w.events.run uses).2 := turn.events_eq
    have hrun := h.run uses
    rw [turn.eventsOf_eq] at hrun
    rw [hevents]
    exact hrun

theorem Seated.others (h : Seated es w) {j k i p : Nat} (hk : k ≠ j) (input : SessionInput)
    (hi : (w.phase k).receiver? = some i) (hp : w.events.position? i = some p) :
    (w.step (.session j input)).events.position? i = some p := by
  obtain ⟨uses, turn⟩ := SessionPhase.turn_of_step w.relay (w.phase j) input
  have hother : (w.phase j).receiver? ≠ some i := fun hj => hk (h.apart k j i hi hj)
  obtain ⟨hr, hd⟩ := turn.uses_own hother
  have hevents : (w.step (.session j input)).events = (w.events.run uses).2 := turn.events_eq
  rw [hevents]
  exact Broadcast.run_position? hp hr hd

theorem Seated.shift (h : Seated es w) {j p : Nat} (hp : w.position? j = some p) (a : Act) :
    ∃ next, SessionPhase.Shift w.events.capacity es p (w.hears j a) next ∧
      ((w.step a).phase j = .ended ∨ (w.step a).position? j = some next) := by
  obtain ⟨i, hi, hpos⟩ := receiver?_of_position? hp
  have hle := h.le_length hp
  cases a with
  | move m =>
    refine ⟨p, .rests, .inr (position?_eq hi ?_)⟩
    exact Broadcast.run_position? hpos (by simp) (by simp)
  | arrive =>
    refine ⟨p, .rests, .inr (position?_eq ?_ hpos)⟩
    rw [arrive_receiver?]
    exact hi
  | close => exact ⟨p, .rests, .inr hp⟩
  | session k input =>
    by_cases hk : k = j
    · subst k
      obtain ⟨uses, turn⟩ := SessionPhase.turn_of_step w.relay (w.phase j) input
      obtain ⟨next, hshift, hend⟩ := turn.shift h.recorded hi hpos hle
      rw [hears, if_pos rfl]
      refine ⟨next, hshift, ?_⟩
      rcases hend with hend | ⟨hi', hnext⟩
      · exact .inl ((w.step_phase_self j input).trans hend)
      · refine .inr (position?_eq ?_ hnext)
        rw [step_phase_self]
        exact hi'
    · rw [hears, if_neg hk]
      refine ⟨p, .rests, .inr (position?_eq ?_ (h.others (Ne.symm hk) input hi hpos))⟩
      rw [step_phase_other _ _ _ (Ne.symm hk)]
      exact hi

theorem Seated.step (h : Seated es w) (a : Act) :
    Seated (es ++ (w.emitted a).map ControllerEvent.toEmit) (w.step a) := by
  have hrecorded := recorded_step h.recorded a
  have hnumbered := h.numbered.step a
  have hlonger : es.length ≤ (es ++ (w.emitted a).map ControllerEvent.toEmit).length := by simp
  -- Who had a receiver before the act stands no further than all the events there are.
  have stay {j i : Nat} (hi : (w.phase j).receiver? = some i)
      (hi' : ((w.step a).phase j).receiver? = some i) :
      ∃ p, (w.step a).events.position? i = some p ∧
        p ≤ (es ++ (w.emitted a).map ControllerEvent.toEmit).length := by
    obtain ⟨p, hp, hle⟩ := h.held j i hi
    obtain ⟨next, hshift, hend⟩ := h.shift (position?_eq hi hp) a
    rcases hend with hend | hnext
    · rw [hend] at hi'
      exact nomatch hi'
    · obtain ⟨i', hi'', hnext⟩ := receiver?_of_position? hnext
      obtain rfl : i = i' := Option.some.inj (hi'.symm.trans hi'')
      exact ⟨next, hnext, (hshift.le_length hle).trans hlonger⟩
  cases a with
  | move m => exact ⟨hrecorded, hnumbered, h.apart, fun j i hi => stay hi hi⟩
  | close => exact ⟨hrecorded, hnumbered, h.apart, fun j i hi => stay hi hi⟩
  | arrive =>
    refine ⟨hrecorded, hnumbered, ?_, ?_⟩
    · intro j k i hj hk
      rw [arrive_receiver?] at hj hk
      exact h.apart j k i hj hk
    · intro j i hi
      exact stay (w.arrive_receiver? j ▸ hi) hi
  | session k input =>
    obtain ⟨uses, turn⟩ := SessionPhase.turn_of_step w.relay (w.phase k) input
    have hself (i : Nat) (hi : ((w.step (.session k input)).phase k).receiver? = some i) :
        (w.phase k).receiver? = some i ∨
          (i = w.events.receivers.length ∧ uses = [.subscribe]) := by
      rw [step_phase_self] at hi
      exact turn.receiver?_eq hi
    have hother {j i : Nat} (hj : j ≠ k)
        (hi : ((w.step (.session k input)).phase j).receiver? = some i) :
        (w.phase j).receiver? = some i := by
      rwa [step_phase_other _ _ _ hj] at hi
    -- A receiver that is new has a number that nobody had before.
    have hfresh {j i : Nat} (hj : j ≠ k)
        (hi : ((w.step (.session k input)).phase k).receiver? = some i)
        (hi' : ((w.step (.session k input)).phase j).receiver? = some i) : False := by
      have hold := hother hj hi'
      rcases hself i hi with hi | ⟨rfl, -⟩
      · exact hj (h.apart j k i hold hi)
      · exact Nat.lt_irrefl _ (h.numbered j _ hold)
    refine ⟨hrecorded, hnumbered, ?_, ?_⟩
    · intro j l i hj hl
      by_cases hjk : j = k <;> by_cases hlk : l = k
      · rw [hjk, hlk]
      · subst j
        exact absurd (hfresh hlk hj hl) id
      · subst l
        exact absurd (hfresh hjk hl hj) id
      · exact h.apart j l i (hother hjk hj) (hother hlk hl)
    · intro j i hi
      by_cases hjk : j = k
      · subst j
        rcases hself i hi with hold | ⟨rfl, rfl⟩
        · exact stay hold hi
        · exact ⟨es.length, turn.position?_eq h.recorded, hlonger⟩
      · exact stay (hother hjk hi) hi

theorem Seated.run (h : Seated es w) (acts : List Act) :
    Seated (es ++ w.history acts) (w.after acts) := by
  induction acts generalizing w es with
  | nil => simpa [history, along] using h
  | cons a acts ih =>
    have hrun := ih (h.step a)
    rw [List.append_assoc, ← history_cons] at hrun
    exact hrun

theorem step_capacity (w : World) (a : Act) : (w.step a).events.capacity = w.events.capacity := by
  obtain ⟨uses, h⟩ := w.step_events a
  rw [h, Broadcast.run_capacity]

theorem after_capacity (w : World) (acts : List Act) :
    (w.after acts).events.capacity = w.events.capacity := by
  obtain ⟨uses, h⟩ := w.run_events acts
  rw [h, Broadcast.run_capacity]

theorem lt_length_of_position? {j p : Nat} (h : w.position? j = some p) :
    j < w.sessions.length := by
  apply Nat.lt_of_not_le
  intro hle
  rw [position?, w.phase_of_le j hle] at h
  exact nomatch h

theorem sessions_length_le (w : World) (a : Act) :
    w.sessions.length ≤ (w.step a).sessions.length := by
  cases a <;> simp [World.step]

theorem ended_step {j : Nat} (hj : j < w.sessions.length) (h : w.phase j = .ended) (a : Act) :
    (w.step a).phase j = .ended ∧ w.hears j a = [] := by
  cases a with
  | move m => exact ⟨h, rfl⟩
  | close => exact ⟨h, rfl⟩
  | arrive =>
    rw [arrive_phase _ hj]
    exact ⟨h, rfl⟩
  | session k input =>
    by_cases hk : k = j
    · subst k
      rw [step_phase_self, heed, hears, if_pos rfl, h]
      exact ⟨rfl, rfl⟩
    · rw [step_phase_other _ _ _ (Ne.symm hk), hears, if_neg hk]
      exact ⟨h, rfl⟩

theorem ended_run {j : Nat} (hj : j < w.sessions.length) (h : w.phase j = .ended)
    (acts : List Act) : (w.after acts).phase j = .ended ∧ w.along (hears j) acts = [] := by
  induction acts generalizing w with
  | nil => exact ⟨h, rfl⟩
  | cons a acts ih =>
    obtain ⟨hend, hnone⟩ := ended_step hj h a
    obtain ⟨hends, hnones⟩ := ih (Nat.lt_of_lt_of_le hj (w.sessions_length_le a)) hend
    rw [along, hnone, hnones]
    exact ⟨hends, rfl⟩

inductive Crosses (j number : Nat) (e : Emit) (es : List Emit) (w : World) (acts : List Act) : Prop
  | at (before : List Act) {after : List Act} {a : Act} {position : Nat} {answer : Received Emit}
      (split : acts = before ++ a :: after) (here : (w.after before).position? j = some position)
      (hears : (w.after before).hears j a = [answer])
      (passes : Passes w.events.capacity (es ++ w.history before) number e position answer)

/-- A channel is told of the events in their order, from where it stands. -/
def InOrder (es : List Emit) (w : World) (j : Nat) : Prop :=
  ∀ (acts : List Act) (a : Act) (r : Received Emit), (w.after acts).hears j a = [r] →
    ∃ position next, (w.after acts).position? j = some position ∧
      Glance w.events.capacity (es ++ w.history acts) position r next ∧
      ((w.after (acts ++ [a])).phase j = .ended ∨
        (w.after (acts ++ [a])).position? j = some next)

/-- A channel still has an event ahead of it, and comes past that if it looks often enough. -/
def Reaches (es : List Emit) (w : World) (j number : Nat) (e : Emit) : Prop :=
  ∀ position, w.position? j = some position → position ≤ number ∧
    ∀ acts : List Act, number < position + (w.along (hears j) acts).length →
      Crosses j number e es w acts

theorem receiver?_of_hears {j : Nat} {a : Act} {r : Received Emit} (h : w.hears j a = [r]) :
    ∃ i, (w.phase j).receiver? = some i := by
  cases a with
  | session k input =>
    by_cases hk : k = j
    · subst k
      rw [hears, if_pos rfl] at h
      rcases SessionPhase.hears_cases w.relay (w.phase j) input with hnone | ⟨i, hi, -⟩
      · rw [hnone] at h
        exact nomatch h
      · exact ⟨i, hi⟩
    · rw [hears, if_neg hk] at h
      exact nomatch h
  | _ => exact nomatch h

theorem Seated.inOrder (h : Seated es w) (j : Nat) : InOrder es w j := by
  intro acts a r hr
  have hrun := h.run acts
  obtain ⟨i, hi⟩ := receiver?_of_hears hr
  obtain ⟨p, hp, -⟩ := hrun.held j i hi
  obtain ⟨next, hshift, hend⟩ := hrun.shift (position?_eq hi hp) a
  rw [hr, after_capacity] at hshift
  rw [after_concat]
  cases hshift with
  | looks glance => exact ⟨p, next, position?_eq hi hp, glance, hend⟩

theorem Crosses.cons {j number : Nat} {e : Emit} {acts : List Act} {a : Act}
    (h : Crosses j number e (es ++ (w.emitted a).map ControllerEvent.toEmit) (w.step a) acts) :
    Crosses j number e es w (a :: acts) := by
  obtain ⟨before, split, here, hears, passes⟩ := h
  refine .at (a :: before) (congrArg (a :: ·) split) here hears ?_
  rw [step_capacity, List.append_assoc, ← history_cons] at passes
  exact passes

/-- Every answer brings a channel on, as long as there is an event ahead of it. -/
theorem shift_length_le {capacity number p next : Nat} {e : Emit} {rs : List (Received Emit)}
    (h : SessionPhase.Shift capacity es p rs next) (he : es[number]? = some e)
    (hp : p ≤ number) : p + rs.length ≤ next := by
  cases h with
  | rests => exact Nat.le_refl p
  | looks glance =>
    obtain ⟨hlt, -⟩ := List.getElem?_eq_some_iff.1 he
    exact glance.lt_next (Nat.lt_of_le_of_lt hp hlt)

theorem Seated.crosses {e : Emit} {number j p : Nat} (h : Seated es w) (he : es[number]? = some e)
    (hp : w.position? j = some p) (hle : p ≤ number) (acts : List Act)
    (enough : number < p + (w.along (hears j) acts).length) : Crosses j number e es w acts := by
  induction acts generalizing w es p with
  | nil =>
    rw [along, List.length_nil] at enough
    omega
  | cons a acts ih =>
    rw [along, List.length_append] at enough
    obtain ⟨next, hshift, hend⟩ := h.shift hp a
    have hasks := shift_length_le hshift he hle
    have hlater : (es ++ (w.emitted a).map ControllerEvent.toEmit)[number]? = some e := by
      obtain ⟨hlt, -⟩ := List.getElem?_eq_some_iff.1 he
      rw [List.getElem?_append_left hlt]
      exact he
    -- Either this act takes the channel past the event, or one of the others has to.
    by_cases hpast : number < next
    · generalize hheard : w.hears j a = heard at hshift
      cases hshift with
      | rests => omega
      | looks glance =>
        refine .at [] rfl hp hheard ?_
        rw [history, along, List.map_nil, List.append_nil]
        exact glance.passes he hle hpast
    · rcases hend with hend | hnext
      · obtain ⟨-, hnone⟩ := ended_run (Nat.lt_of_lt_of_le (lt_length_of_position? hp)
          (w.sessions_length_le a)) hend acts
        rw [hnone, List.length_nil] at enough
        omega
      · exact (ih (h.step a) hlater hnext (by omega) (by omega)).cons

end

end World

end SearchRelay
