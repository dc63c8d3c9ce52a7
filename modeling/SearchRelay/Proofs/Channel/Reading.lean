import SearchRelay.Proofs.Broadcast.Delivery
import SearchRelay.Proofs.Channel.World

namespace SearchRelay.World

open Broadcast (Action eventsOf told delivered)

section

variable (w : World) (j : Nat) (input : SessionInput)

theorem phase_of_le (h : w.sessions.length ≤ j) : w.phase j = .ended := by
  rw [phase, List.getD_eq_getElem?_getD, List.getElem?_eq_none h]
  rfl

theorem step_phase_self : (w.step (.session j input)).phase j = (w.heed j input).1 := by
  by_cases h : j < w.sessions.length
  · simp [step, phase, h]
  · have hj := w.phase_of_le j (Nat.not_lt.1 h)
    rw [heed, hj, phase_of_le _ _ (by simpa [step] using h)]
    rfl

theorem step_phase_other {k : Nat} (h : k ≠ j) :
    (w.step (.session j input)).phase k = w.phase k := by
  simp [step, phase, List.getElem?_set_ne h.symm]

theorem arrive_receiver? (k : Nat) : ((w.step .arrive).phase k).receiver? =
    (w.phase k).receiver? := by
  simp only [step, phase, List.getD_eq_getElem?_getD, List.getElem?_append]
  split
  · rfl
  · rename_i h
    rw [List.getElem?_eq_none (Nat.not_lt.1 h)]
    cases hk : k - w.sessions.length <;> rfl

theorem arrive_phase {k : Nat} (h : k < w.sessions.length) :
    (w.step .arrive).phase k = w.phase k := by
  simp [step, phase, List.getElem?_append_left h]

end

def Numbered (w : World) : Prop :=
  ∀ k i, (w.phase k).receiver? = some i → i < w.events.receivers.length

theorem Numbered.step {w : World} (h : w.Numbered) (a : Act) : (w.step a).Numbered := by
  intro k i hi
  cases a with
  | move m =>
    have hlt := h k i hi
    simp only [World.step, Broadcast.run_receivers_length]
    omega
  | arrive => exact h k i (w.arrive_receiver? k ▸ hi)
  | close => exact h k i hi
  | session j input =>
    obtain ⟨uses, turn⟩ := SessionPhase.turn_of_step w.relay (w.phase j) input
    have hlen : (w.step (.session j input)).events.receivers.length =
        w.events.receivers.length + uses.countP Action.isSubscribe := by
      rw [← Broadcast.run_receivers_length]
      exact congrArg (fun b => b.receivers.length) turn.events_eq
    rw [hlen]
    by_cases hk : k = j
    · subst k
      rw [step_phase_self] at hi
      rcases turn.receiver?_eq hi with hi | ⟨rfl, rfl⟩
      · have hlt := h j i hi
        omega
      · exact Nat.lt_succ_self _
    · rw [step_phase_other _ _ _ hk] at hi
      have hlt := h k i hi
      omega

theorem Numbered.run {w : World} (h : w.Numbered) (acts : List Act) :
    (w.after acts).Numbered := by
  induction acts generalizing w with
  | nil => exact h
  | cons a acts ih => exact ih (h.step a)

/-- What a channel got and what it brought to its page so far, after it subscribed to a broadcast
and some things were done with that. -/
inductive Reads (b : Broadcast Emit) (uses : List Action) (got : List Emit) (said : List String) :
    SessionPhase → Prop
  | subscribed (here : .dropReceiver b.subscribe.1 ∉ uses) (untold : told b uses = [])
      (deaf : got = []) (silent : said = []) : Reads b uses got said (.subscribed b.subscribe.1)
  | counted (here : .dropReceiver b.subscribe.1 ∉ uses) (untold : told b uses = [])
      (deaf : got = []) (silent : said = []) (client : ClientId) :
      Reads b uses got said (.counted b.subscribe.1 client)
  | serving (here : .dropReceiver b.subscribe.1 ∉ uses) (hears : got = delivered (told b uses))
      (client : ClientId) (passes : said = (Emit.connected ⟨client⟩ :: got).map Emit.toText) :
      Reads b uses got said (.serving b.subscribe.1 client)
  | ended : Reads b uses got said .ended

/-- A channel that subscribed to a broadcast, in a world where something was done since. -/
structure Attends (b : Broadcast Emit) (j : Nat) (uses : List Action) (got : List Emit)
    (said : List String) (w : World) : Prop where
  events : w.events = (b.subscribe.2.run uses).2
  here : j < w.sessions.length
  others : ∀ k, k ≠ j → (w.phase k).receiver? ≠ some b.subscribe.1
  reads : Reads b uses got said (w.phase j)

section

variable {b : Broadcast Emit} {uses more : List Action} {got : List Emit} {said : List String}

theorem Reads.others {phase : SessionPhase} (r : Reads b uses got said phase)
    (hr : .receive b.subscribe.1 ∉ more) (hd : .dropReceiver b.subscribe.1 ∉ more) :
    Reads b (uses ++ more) got said phase := by
  have htold : told b (uses ++ more) = told b uses := by
    rw [Broadcast.told_append_run, Broadcast.heardBy_run_of_not_mem hr, List.append_nil]
  cases r with
  | subscribed here untold deaf silent =>
    exact .subscribed (by simp [here, hd]) (htold.trans untold) deaf silent
  | counted here untold deaf silent client =>
    exact .counted (by simp [here, hd]) (htold.trans untold) deaf silent client
  | serving here hears client passes =>
    exact .serving (by simp [here, hd]) (htold ▸ hears) client passes
  | ended => exact .ended

theorem told_concat_receive {r : Broadcast.Received Emit} {events : Broadcast Emit}
    (he : events = (b.subscribe.2.run uses).2)
    (hr : (events.receive b.subscribe.1).1 = some r) :
    told b (uses ++ [.receive b.subscribe.1]) = told b uses ++ [r] := by
  rw [Broadcast.told_append_run, ← he, Broadcast.run_cons]
  simp [Broadcast.act, Broadcast.heardBy, Broadcast.heard?, hr]

theorem Reads.turn {relay relay' : Relay} {phase phase' : SessionPhase} {input : SessionInput}
    {frames : List Frame} (r : Reads b uses got said phase)
    (he : relay.events = (b.subscribe.2.run uses).2)
    (t : SessionPhase.Turn relay phase input phase' relay' frames more) :
    Reads b (uses ++ more) (got ++ phase.gets relay input)
      (said ++ frames.filterMap Frame.text?) phase' := by
  cases t with
  | subscribe => exact nomatch r
  | connect i client =>
    cases r with
    | subscribed here untold deaf silent =>
      exact .counted (by simpa using here) (by simpa using untold)
        (by simp [deaf, SessionPhase.gets]) (by simp [silent]) client
  | greet i client =>
    cases r with
    | counted here untold deaf silent =>
      exact .serving (by simpa using here) (by simp [deaf, untold, SessionPhase.gets]) client
        (by simp [silent, deaf, SessionPhase.gets, Frame.text?])
  | event i client e h =>
    cases r with
    | serving here hears _ passes =>
      have hgets : (SessionPhase.serving b.subscribe.1 client).gets relay (.event true) = [e] := by
        simp [SessionPhase.gets, h, Broadcast.Received.event?]
      rw [he] at h
      refine .serving (by simpa using here) ?_ client ?_
      · rw [told_concat_receive rfl h, hears, hgets]
        simp [delivered, Broadcast.Received.event?]
      · rw [passes, hgets]
        simp [Frame.text?]
  | skip i client sent h silent =>
    cases r with
    | serving here hears _ passes =>
      have hgets : (SessionPhase.serving b.subscribe.1 client).gets relay (.event sent) = [] := by
        simp [SessionPhase.gets, h, silent]
      rw [he] at h
      refine .serving (by simpa using here) ?_ client ?_
      · rw [told_concat_receive rfl h, hears, hgets]
        simp [delivered, silent]
      · rw [passes, hgets]
        simp
  | pong i client payload =>
    cases r with
    | serving here hears _ passes =>
      refine .serving (by simpa using here) (by simpa [SessionPhase.gets] using hears) client ?_
      simpa [List.filterMap_cons, Frame.text?, SessionPhase.gets] using passes
  | leave => exact .ended
  | rest _ _ deaf => simpa [SessionPhase.gets_eq, deaf] using r

theorem Attends.step {w : World} {j : Nat} (h : Attends b j uses got said w) (a : Act) :
    ∃ more, eventsOf more = (w.emitted a).map ControllerEvent.toEmit ∧
      Attends b j (uses ++ more) (got ++ w.received j a) (said ++ w.texts j a) (w.step a) := by
  have hlen : b.subscribe.1 < w.events.receivers.length := by
    rw [h.events, Broadcast.run_receivers_length]
    simp [Broadcast.subscribe]
    omega
  cases a with
  | move m =>
    refine ⟨(w.announced m).map fun e => .send e.toEmit, ?_, ?_, h.here, h.others, ?_⟩
    · simp [eventsOf, Action.event?, emitted, List.filterMap_map, Function.comp_def]
    · rw [Broadcast.run_append, ← h.events]
      rfl
    · change Reads b _ (got ++ []) (said ++ []) _
      rw [List.append_nil, List.append_nil]
      exact h.reads.others (by simp) (by simp)
  | arrive =>
    refine ⟨[], rfl, ?_, ?_, ?_, ?_⟩
    · rw [List.append_nil]
      exact h.events
    · simp only [World.step, List.length_append]
      have := h.here
      omega
    · intro k hk
      rw [arrive_receiver?]
      exact h.others k hk
    · change Reads b _ (got ++ []) (said ++ []) _
      rw [arrive_phase _ h.here, List.append_nil, List.append_nil, List.append_nil]
      exact h.reads
  | close =>
    refine ⟨[], rfl, ?_, h.here, h.others, ?_⟩
    · rw [List.append_nil]
      exact h.events
    · change Reads b _ (got ++ []) (said ++ []) _
      rw [List.append_nil, List.append_nil, List.append_nil]
      exact h.reads
  | session k input =>
    obtain ⟨more, turn⟩ := SessionPhase.turn_of_step w.relay (w.phase k) input
    have hnone : eventsOf more = (w.emitted (.session k input)).map ControllerEvent.toEmit := by
      rw [turn.eventsOf_eq]
      rfl
    have hevents : (w.step (.session k input)).events = (b.subscribe.2.run (uses ++ more)).2 := by
      rw [Broadcast.run_append, ← h.events]
      exact turn.events_eq
    have hhere : j < (w.step (.session k input)).sessions.length := by
      simpa [World.step] using h.here
    by_cases hk : k = j
    · subst k
      refine ⟨more, hnone, hevents, hhere, ?_, ?_⟩
      · intro k hk
        rw [step_phase_other _ _ _ hk]
        exact h.others k hk
      · rw [step_phase_self, received, texts, if_pos rfl, if_pos rfl]
        exact h.reads.turn h.events turn
    · obtain ⟨hr, hd⟩ := turn.uses_own (h.others k hk)
      refine ⟨more, hnone, hevents, hhere, ?_, ?_⟩
      · intro l hl hi
        by_cases hlk : l = k
        · subst l
          rw [step_phase_self] at hi
          -- A receiver that is new has a number that nobody had before.
          rcases turn.receiver?_eq hi with hi | ⟨hi, -⟩
          · exact h.others k hk hi
          · exact Nat.lt_irrefl _ (hi ▸ hlen)
        · rw [step_phase_other _ _ _ hlk] at hi
          exact h.others l hl hi
      · rw [step_phase_other _ _ _ (Ne.symm hk), received, texts, if_neg hk, if_neg hk,
          List.append_nil, List.append_nil]
        exact h.reads.others hr hd

theorem Attends.run {w : World} {j : Nat} (h : Attends b j uses got said w) (acts : List Act) :
    ∃ more, eventsOf more = (w.along emitted acts).map ControllerEvent.toEmit ∧
      Attends b j (uses ++ more) (got ++ w.along (received j) acts)
        (said ++ w.along (texts j) acts) (w.after acts) := by
  induction acts generalizing w uses got said with
  | nil => exact ⟨[], rfl, by simpa [along] using h⟩
  | cons a acts ih =>
    obtain ⟨first, hfirst, hstep⟩ := h.step a
    obtain ⟨rest, hrest, hrun⟩ := ih hstep
    refine ⟨first ++ rest, ?_, by simpa [along, after_cons] using hrun⟩
    rw [eventsOf, List.filterMap_append, along, List.map_append, ← hfirst, ← hrest]
    rfl

theorem attends_subscribe {w : World} {j : Nat} (hn : w.Numbered) (hj : w.phase j = .arriving) :
    Attends w.events j [] [] [] (w.step (.session j .subscribe)) := by
  have hlt : j < w.sessions.length := by
    by_contra h
    rw [w.phase_of_le j (Nat.not_lt.1 h)] at hj
    exact nomatch hj
  refine ⟨?_, by simpa [World.step] using hlt, ?_, ?_⟩
  · simp only [World.step, heed, hj]
    rfl
  · intro k hk hi
    rw [step_phase_other _ _ _ hk] at hi
    exact Nat.lt_irrefl _ (hn k _ hi)
  · rw [step_phase_self, heed, hj]
    exact .subscribed List.not_mem_nil rfl rfl rfl

/-- A channel with nothing left to get has got the newest event. -/
theorem Reads.newest {i : Nat} {client : ClientId} (r : Reads b uses got said (.serving i client))
    (there : b.hasBroadcaster) (room : 0 < b.capacity)
    (drained : ((b.subscribe.2.run uses).2.receive i).1 = some .empty)
    (hne : eventsOf uses ≠ []) : got.getLast? = (eventsOf uses).getLast? := by
  cases r with
  | serving here hears =>
    have hahead := (Broadcast.told_accounts there room here).2.2
    have hlook := (Broadcast.next_eq_look there room here).symm.trans drained
    have hempty : (eventsOf uses).drop (Broadcast.accounted b uses) = [] := by
      obtain ⟨-, he⟩ | ⟨hnil, -⟩ | ⟨a, rest, -, -, he⟩ := Broadcast.look_cases b.capacity
        ((eventsOf uses).drop (Broadcast.accounted b uses))
      · rw [he] at hlook
        exact nomatch hlook
      · exact hnil
      · rw [he] at hlook
        exact nomatch hlook
    rw [hears, (Broadcast.told_tracks there room here).1,
      Broadcast.hear_last room (hahead.trans hempty)]
    · rw [List.nil_append, Broadcast.sentBy_signals]
    · rwa [List.nil_append, Broadcast.sentBy_signals]

end

end SearchRelay.World
