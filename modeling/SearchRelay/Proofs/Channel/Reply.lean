import SearchRelay.Proofs.Channel.Position
import SearchRelay.Proofs.Channel.Posting

/-!
Every client that the controller was told of can hear the reply to that: its channel listens before
it tells of the client, so the reply is still ahead of it.
-/

namespace SearchRelay.World

def launch (controller : Controller) (around : Surroundings) (events : Broadcast Emit) : World :=
  { scene := .opening controller around, events }

/-- A channel subscribed after some acts, told of its client after some more, and then its message
was taken and answered. The message was number `n` of all that were put, and of all that were
taken. -/
structure Answered (start : World) (n j : Nat) (client : ClientId)
    (unsubscribed untold unheard : List Act) (m : Move) (reply : StatusPayload) : Prop where
  subscribes : (start.after unsubscribed).phase j = .arriving ∧
    ∃ acts, untold = unsubscribed ++ .session j .subscribe :: acts
  stands : (start.after (unsubscribed ++ [.session j .subscribe])).position? j =
    some (start.history unsubscribed).length
  tells : (start.posts untold).length = n ∧
    (start.after untold).posted (.session j (.connect client)) =
      [⟨some j, .newConnection client⟩] ∧
    ∃ acts, unheard = untold ++ .session j (.connect client) :: acts
  takes : (start.along taken unheard).length = n ∧
    (start.after unheard).taken (.move m) = [.newConnection client]
  answers : (start.after unheard).emitted (.move m) = [.status reply]
  later : (start.history unsubscribed).length ≤ (start.history unheard).length
  inOrder : InOrder (start.history (unheard ++ [.move m])) (start.after (unheard ++ [.move m])) j
  reaches : Reaches (start.history (unheard ++ [.move m])) (start.after (unheard ++ [.move m])) j
    (start.history unheard).length (ControllerEvent.status reply).toEmit

/-- Every message of a channel that was taken was answered when the channel listened already. -/
def Answers (start : World) : Prop :=
  ∀ (acts : List Act) (n j : Nat) (client : ClientId),
    (start.posts acts)[n]? = some ⟨some j, .newConnection client⟩ →
    n < (start.along taken acts).length →
    ∃ unsubscribed untold unheard m reply rest, acts = unheard ++ .move m :: rest ∧
      Answered start n j client unsubscribed untold unheard m reply

theorem launch_seated (controller : Controller) (around : Surroundings) {events : Broadcast Emit}
    (h : Broadcast.Recorded events []) : Seated [] (launch controller around events) where
  recorded := h
  numbered := fun _ _ h => nomatch h
  apart := fun _ _ _ h => nomatch h
  held := fun _ _ h => nomatch h

section

variable {w : World}

theorem position?_subscribe {es : List Emit} (h : Seated es w) {j : Nat}
    (hj : w.phase j = .arriving) :
    (w.step (.session j .subscribe)).position? j = some es.length := by
  refine position?_eq (i := w.events.receivers.length) ?_ ?_
  · rw [step_phase_self, heed, hj]
    rfl
  · rw [← h.recorded.sent]
    simp only [step, heed, hj]
    exact Broadcast.subscribe_position? w.events

theorem position?_move {es : List Emit} (h : Seated es w) {j p : Nat} (m : Move)
    (hp : (w.step (.move m)).position? j = some p) : w.position? j = some p := by
  obtain ⟨i, hi, hpos⟩ := receiver?_of_position? hp
  have hold : (w.phase j).receiver? = some i := hi
  obtain ⟨q, hq, -⟩ := h.held j i hold
  have hsame : (w.step (.move m)).events.position? i = some q :=
    Broadcast.run_position? hq (by simp) (by simp)
  obtain rfl : p = q := Option.some.inj (hpos.symm.trans hsame)
  exact position?_eq hold hq

/-- An answer is ahead of every channel that listens when it comes. -/
theorem Seated.reaches {es : List Emit} (h : Seated es w) (j : Nat) {m : Move} {e : ControllerEvent}
    (he : w.emitted (.move m) = [e]) :
    Reaches (es ++ [e.toEmit]) (w.step (.move m)) j es.length e.toEmit := by
  have hnext := h.step (.move m)
  rw [he] at hnext
  intro position hp
  have hle := h.le_length (position?_move h m hp)
  refine ⟨hle, fun acts enough => hnext.crosses ?_ hp hle acts enough⟩
  exact List.getElem?_concat_length

theorem answers_of_seated {start : World} (h : Seated [] start) (none : start.sessions = []) :
    Answers start := by
  intro acts n j client hpost htaken
  obtain ⟨unheard, m, rest, q, reply, rfl, hturn, htake, hanswer⟩ := taken_split htaken
  -- The message that is taken now was put before, as the one with the same number.
  have hfront := getElem?_posts_of_taken htake
  rw [hturn, List.getElem?_map, Option.map_eq_some_iff] at hfront
  obtain ⟨post, hput, hq⟩ := hfront
  obtain rfl : post = ⟨some j, .newConnection client⟩ := by
    obtain ⟨hlt, -⟩ := List.getElem?_eq_some_iff.1 hput
    rw [posts_append, List.getElem?_append_left hlt, hput] at hpost
    exact Option.some.inj hpost
  obtain rfl : q = .newConnection client := hq.symm
  obtain ⟨untold, i, client', late, rfl, hsubscribed, hclient, hnumber, hposted⟩ :=
    posts_split hput
  obtain rfl := QueueMessage.newConnection.inj hclient
  obtain ⟨unsubscribed, between, rfl, harriving⟩ :=
    subscribe_split (j := j) (i := i) none (by rw [hsubscribed]; rfl)
  have hseated := h.run (unsubscribed ++ .session j .subscribe :: between ++
    .session j (.connect client) :: late)
  refine ⟨unsubscribed, _, _, m, reply, rest, rfl, ⟨harriving, between, rfl⟩, ?_,
    ⟨hnumber, hposted, late, rfl⟩, ⟨hturn, htake⟩, hanswer, ?_, ?_, ?_⟩
  · rw [after_concat]
    exact position?_subscribe (h.run unsubscribed) harriving
  · rw [List.append_assoc, history_append, List.length_append]
    exact Nat.le_add_right _ _
  · exact (h.run _).inOrder j
  · rw [history_concat, hanswer, after_concat]
    exact hseated.reaches j hanswer

end

/-- For every capacity that can be asked for, and for both kinds of controllers, no reply comes
before the channel of the client listens. The room is the smallest power of two that is large
enough. -/
theorem reply_follows_subscription {capacity : Nat} (hc : capacity ≤ Broadcast.maxCapacity) :
    ∃ fresh, Broadcast.ofCapacity capacity = .ok fresh ∧
      IsLeast {m | (∃ k, m = 2 ^ k) ∧ max capacity 1 ≤ m} fresh.capacity ∧
      ∀ (controller : Controller) (around : Surroundings),
        Answers (launch controller around fresh) := by
  obtain ⟨fresh, hf, hleast, -⟩ := @Broadcast.ofCapacity_ok Emit _ hc
  refine ⟨fresh, hf, hleast, fun controller around => ?_⟩
  have hseated := launch_seated controller around (Broadcast.recorded_of_ofCapacity hf)
  exact answers_of_seated hseated rfl

theorem reply_follows_subscription_mock :
    1 ≤ Broadcast.maxCapacity ∧ ∃ fresh, Broadcast.ofCapacity 1 = .ok fresh ∧
      ∃ unsubscribed untold unheard m reply rest,
        [.arrive, .session 0 .subscribe, .move .begin, .session 0 (.connect ⟨7⟩),
          .move .serveQueue] = unheard ++ .move m :: rest ∧
        Answered (launch (.mock (.ofSettings "/" 10 0)) { files := .empty } fresh) 0 0 ⟨7⟩
          unsubscribed untold unheard m reply := by
  obtain ⟨fresh, hf, -, h⟩ := @reply_follows_subscription 1 (by decide)
  obtain rfl : { capacity := 1 } = fresh := Except.ok.inj hf
  exact ⟨by decide, _, hf, h _ _ _ 0 0 ⟨7⟩ rfl (by decide)⟩

end SearchRelay.World
