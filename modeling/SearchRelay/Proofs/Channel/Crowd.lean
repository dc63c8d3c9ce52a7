import Mathlib.Data.List.Induction
import SearchRelay.Proofs.Channel.Script
import SearchRelay.Proofs.Trace

/-!
Any number of channels at their own pace, while everything else that they share may change in any
way. Each of them follows its script, and the clients are counted right.
-/

namespace SearchRelay

structure Crowd where
  relay : Relay
  sessions : List SessionPhase := []

inductive Deed
  | arrive
  | session (j : Nat) (input : SessionInput)
  /-- Whatever happens elsewhere to the queue, the events and the latch. Only channels count
  clients. -/
  | elsewhere (relay : Relay)

namespace Crowd

def phase (c : Crowd) (j : Nat) : SessionPhase := c.sessions.getD j .ended

def heed (c : Crowd) (j : Nat) (input : SessionInput) : SessionPhase × Relay × SessionOutput :=
  (c.phase j).step c.relay input

def step (c : Crowd) : Deed → Crowd
  | .arrive => { c with sessions := c.sessions ++ [.arriving] }
  | .session j input =>
    let (phase, relay, _) := c.heed j input
    ⟨relay, c.sessions.set j phase⟩
  | .elsewhere relay => { c with relay := { relay with clients := c.relay.clients } }

def after (c : Crowd) (deeds : List Deed) : Crowd := deeds.foldl step c

def own {β : Type} (f : Nat → Crowd → SessionInput → List β) (j : Nat) (c : Crowd) : Deed → List β
  | .session k input => if k = j then f j c input else []
  | _ => []

def along {β : Type} (c : Crowd) (f : Nat → Crowd → SessionInput → List β) (j : Nat)
    (deeds : List Deed) : List β :=
  Trace.along step (own f j) c deeds

def calls (j : Nat) (c : Crowd) (input : SessionInput) : List Call :=
  (c.phase j).calls (c.heed j input).1

def prompts (j : Nat) (c : Crowd) (input : SessionInput) : List Prompt :=
  (c.phase j).prompts c.relay input

def frames (j : Nat) (c : Crowd) (input : SessionInput) : List Frame := (c.heed j input).2.2.frames

def opening (relay : Relay) : Crowd := { relay := { relay with clients := 0 } }

section

variable {β : Type} (f : Nat → Crowd → SessionInput → List β) (c : Crowd) (j : Nat)

theorem after_append (deeds more : List Deed) :
    c.after (deeds ++ more) = (c.after deeds).after more := List.foldl_append

theorem after_concat (deeds : List Deed) (d : Deed) :
    c.after (deeds ++ [d]) = (c.after deeds).step d := c.after_append deeds [d]

end

def Tells (phase? : Option SessionPhase) (calls : List Call) (prompts : List Prompt)
    (frames : List Frame) : Prop :=
  match phase? with
  | some phase => SessionPhase.Script phase calls prompts frames
  | none => calls = [] ∧ prompts = [] ∧ frames = []

section

variable {c : Crowd}

theorem phase_of_getElem? {j : Nat} {phase : SessionPhase} (h : c.sessions[j]? = some phase) :
    c.phase j = phase := by
  rw [Crowd.phase, List.getD_eq_getElem?_getD, h]
  rfl

theorem phase_of_none {j : Nat} (h : c.sessions[j]? = none) : c.phase j = .ended := by
  rw [Crowd.phase, List.getD_eq_getElem?_getD, h]
  rfl

theorem follows (c : Crowd) (j : Nat) (input : SessionInput) :
    SessionPhase.Follows c.relay (c.phase j) input (c.heed j input) :=
  SessionPhase.step_follows c.relay (c.phase j) input

theorem getElem?_session (c : Crowd) (j : Nat) (input : SessionInput) :
    (c.step (.session j input)).sessions[j]? = c.sessions[j]?.map fun _ => (c.heed j input).1 :=
  List.getElem?_set_self'

theorem silent_of_ended {j : Nat} (h : c.phase j = .ended) (input : SessionInput) :
    c.heed j input = (.ended, c.relay, {}) ∧ calls j c input = [] ∧ prompts j c input = [] := by
  rw [calls, prompts, heed, h]
  exact ⟨rfl, rfl, rfl⟩

theorem Tells.session {j : Nat} {calls : List Call} {prompts : List Prompt} {frames : List Frame}
    (h : Tells c.sessions[j]? calls prompts frames) (input : SessionInput) :
    Tells (c.step (.session j input)).sessions[j]? (calls ++ Crowd.calls j c input)
      (prompts ++ Crowd.prompts j c input) (frames ++ Crowd.frames j c input) := by
  rw [getElem?_session]
  cases hj : c.sessions[j]? with
  | some phase =>
    rw [hj] at h
    have follows := c.follows j input
    have cue := follows.cue
    rw [Crowd.frames, follows.frames, Crowd.calls, Crowd.prompts]
    rw [phase_of_getElem? hj] at cue ⊢
    exact h.cue cue
  | none =>
    rw [hj] at h
    obtain ⟨rfl, rfl, rfl⟩ := h
    obtain ⟨heed, calls, prompts⟩ := silent_of_ended (phase_of_none hj) input
    rw [calls, prompts, Crowd.frames, heed]
    exact ⟨rfl, rfl, rfl⟩

def Counts (c : Crowd) : Prop :=
  c.relay.clients = c.sessions.countP fun phase => phase.client?.isSome

theorem Counts.step (h : c.Counts) (d : Deed) : (c.step d).Counts := by
  cases d with
  | arrive =>
    rw [Counts, Crowd.step, List.countP_append]
    exact h
  | elsewhere relay => exact h
  | session j input =>
    have heffect := congrArg Relay.clients (c.follows j input).effect
    rw [Counts] at h ⊢
    simp only [Crowd.step]
    cases hj : c.sessions[j]? with
    | none =>
      have hphase := phase_of_none hj
      have hcalls : (c.phase j).calls (c.heed j input).1 = [] := by
        rw [heed, hphase]
        cases input <;> rfl
      rw [List.set_eq_of_length_le (List.getElem?_eq_none_iff.1 hj), ← h, heffect, hcalls]
      rfl
    | some phase =>
      obtain ⟨hlt, hget⟩ := List.getElem?_eq_some_iff.1 hj
      have hphase := phase_of_getElem? hj
      have hcounted : phase.client?.isSome → 0 < c.relay.clients := by
        intro hclient
        rw [h]
        exact List.countP_pos_iff.2 ⟨phase, List.mem_of_getElem? hj, hclient⟩
      -- A client is added or taken off just where the channel gets one or has it no more.
      rw [heffect, List.countP_set hlt, hget, ← h, hphase, SessionPhase.calls]
      cases hold : phase.client? with
      | none => cases (c.heed j input).1.client? <;> rfl
      | some client =>
        rw [hold] at hcounted
        have hpos := hcounted rfl
        cases (c.heed j input).1.client? with
        | none => rfl
        | some client' => exact (Nat.sub_add_cancel hpos).symm

def Alike (c other : Crowd) : Prop :=
  ∃ queue, other = ⟨{ c.relay with queue }, c.sessions⟩

inductive AlikeDeed : Deed → Deed → Prop
  | same (d : Deed) : AlikeDeed d d
  | elsewhere (relay : Relay) (queue : Queue QueueMessage) :
      AlikeDeed (.elsewhere relay) (.elsewhere { relay with queue })

variable {other : Crowd} {d e : Deed}

theorem Alike.heed (h : Alike c other) (j : Nat) (input : SessionInput) :
    SessionPhase.Alike (c.heed j input) (other.heed j input) := by
  obtain ⟨queue, rfl⟩ := h
  exact SessionPhase.step_alike c.relay queue (c.phase j) input

theorem Alike.step (h : Alike c other) (hd : AlikeDeed d e) : Alike (c.step d) (other.step e) := by
  cases hd with
  | same =>
    cases d with
    | arrive =>
      obtain ⟨queue, rfl⟩ := h
      exact ⟨queue, rfl⟩
    | session j input =>
      have hheed := h.heed j input
      obtain ⟨queue, hrelay⟩ := hheed.relay
      have hsessions : other.sessions = c.sessions := by
        obtain ⟨-, rfl⟩ := h
        rfl
      refine ⟨queue, ?_⟩
      simp only [Crowd.step, hrelay, hheed.phase, hsessions]
    | elsewhere relay =>
      obtain ⟨queue, rfl⟩ := h
      exact ⟨relay.queue, rfl⟩
  | elsewhere relay queue =>
    obtain ⟨-, rfl⟩ := h
    exact ⟨queue, rfl⟩

theorem Alike.after (h : Alike c other) {deeds more : List Deed}
    (hd : List.Forall₂ AlikeDeed deeds more) : Alike (c.after deeds) (other.after more) := by
  induction hd generalizing c other with
  | nil => exact h
  | cons hd hds ih => exact ih (h.step hd)

theorem Alike.own {β : Type} {f : Nat → Crowd → SessionInput → List β}
    (hf : ∀ j input c other, Alike c other → f j other input = f j c input) (h : Alike c other)
    (hd : AlikeDeed d e) (j : Nat) : own f j other e = own f j c d := by
  cases hd with
  | same =>
    cases d with
    | session k input => rw [Crowd.own, Crowd.own, hf j input c other h]
    | _ => rfl
  | elsewhere relay queue => rfl

theorem Alike.along {β : Type} {f : Nat → Crowd → SessionInput → List β}
    (hf : ∀ j input c other, Alike c other → f j other input = f j c input) (h : Alike c other)
    {deeds more : List Deed} (hd : List.Forall₂ AlikeDeed deeds more) (j : Nat) :
    other.along f j more = c.along f j deeds := by
  induction hd generalizing c other with
  | nil => rfl
  | cons hd hds ih =>
    have hrest := ih (h.step hd)
    rw [Crowd.along] at hrest ⊢
    rw [Trace.along, h.own hf hd, hrest]
    rfl

end

/-- What is always so in a crowd. A channel has no part in what the channels share but its calls and
the events, and a call puts a message for the controller when the client comes, and none later. -/
structure Orderly (c : Crowd) : Prop where
  follows : ∀ j input, SessionPhase.Follows c.relay (c.phase j) input (c.heed j input)
  ends : ∀ j i client input, c.phase j = .serving i client →
    ((c.heed j input).1 = .ended ↔ ∃ prompts, SessionPhase.Departs c.relay i input prompts)
  enqueues : ∀ j input, (c.step (.session j input)).relay.queue =
    ((calls j c input).flatMap Call.messages).foldl (fun q m => (q.put m).2) c.relay.queue
  closes : ∀ j input, .close ∈ frames j c input →
    c.relay.closing.requested ∧ (c.heed j input).1 = .ended
  counts : c.Counts
  empties : (∀ phase ∈ c.sessions, phase = .ended) → c.relay.clients = 0

/-- Two clients come. The greeting of the second is lost; the first lags behind, is passed an event
and answered a ping before the relay closes. -/
def visits : List Deed :=
  [.arrive, .arrive, .session 0 .subscribe, .session 0 (.connect ⟨0⟩), .session 1 .subscribe,
    .session 1 (.connect ⟨1⟩), .session 0 (.greet true), .session 1 (.greet false),
    .elsewhere {
      events := { capacity := 1, newest := [⟨"status", .null⟩], sent := 2, receivers := [some 0, none] }
      closing := { requested := true } },
    .session 0 (.event true), .session 0 (.event true), .session 0 (.inbound (.ping "here") true),
    .session 0 (.inbound .other true), .session 0 (.closing true)]

end Crowd

end SearchRelay
