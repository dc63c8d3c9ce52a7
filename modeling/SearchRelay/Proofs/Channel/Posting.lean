import SearchRelay.Proofs.Channel.Reading
import SearchRelay.Proofs.Controller.Queueing

namespace SearchRelay.World

structure Post where
  author : Option Nat
  message : QueueMessage

def queue (w : World) : Queue QueueMessage := w.scene.around.queue

def posted (w : World) : Act → List Post
  | .move m => (w.scene.move m).2.accepted.map (⟨none, ·⟩)
  | .session j input =>
    ((w.heed j input).2.1.queue.waiting.drop w.queue.waiting.length).map (⟨some j, ·⟩)
  | _ => []

def taken (w : World) : Act → List QueueMessage
  | .move m => (w.scene.move m).2.message?.toList
  | _ => []

/-- All that was put on the queue so far, in order; nobody knows who put what was there before. -/
def posts (w : World) (acts : List Act) : List Post :=
  w.queue.waiting.map (⟨none, ·⟩) ++ w.along posted acts

section

variable {w : World} {a : Act}

theorem posts_append (w : World) (acts more : List Act) :
    w.posts (acts ++ more) = w.posts acts ++ (w.after acts).along posted more := by
  rw [posts, posts, along_append, List.append_assoc]

inductive QueueStep (w : World) (a : Act) : Prop
  | takes (q : QueueMessage) (p : StatusPayload) (taken : w.taken a = [q])
      (posted : w.posted a = []) (answer : w.emitted a = [.status p])
      (waiting : w.queue.waiting = q :: (w.step a).queue.waiting)
      (receiver : (w.step a).queue.receiver = w.queue.receiver)
  | loses (taken : w.taken a = []) (posted : w.posted a = [])
      (waiting : (w.step a).queue.waiting = []) (receiver : (w.step a).queue.receiver = false)
  | keeps (taken : w.taken a = [])
      (waiting : (w.step a).queue.waiting = w.queue.waiting ++ (w.posted a).map Post.message)
      (shut : w.queue.receiver = false → w.posted a = [])
      (receiver : (w.step a).queue.receiver = w.queue.receiver)

theorem posted_session (w : World) (j : Nat) (input : SessionInput) :
    (w.posted (.session j input) = [] ∧ (w.step (.session j input)).queue = w.queue) ∨
      ∃ i client, w.phase j = .subscribed i ∧ input = .connect client ∧ w.queue.receiver ∧
        w.posted (.session j input) = [⟨some j, .newConnection client⟩] ∧
        (w.step (.session j input)).queue =
          { w.queue with waiting := w.queue.waiting ++ [.newConnection client] } := by
  obtain ⟨uses, turn⟩ := SessionPhase.turn_of_step w.relay (w.phase j) input
  have hqueue : (w.step (.session j input)).queue = (w.heed j input).2.1.queue := rfl
  have silent (h : (w.heed j input).2.1.queue = w.queue) :
      w.posted (.session j input) = [] ∧ (w.step (.session j input)).queue = w.queue := by
    rw [posted, hqueue, h, List.drop_length]
    exact ⟨rfl, rfl⟩
  rcases turn.queue_eq with h | ⟨i, client, hphase, hinput, h⟩
  · exact .inl (silent h)
  · have hput : (w.heed j input).2.1.queue = (w.queue.put (.newConnection client)).2 := h
    by_cases hr : w.queue.receiver
    · rw [Queue.put, if_pos hr] at hput
      refine .inr ⟨i, client, hphase, hinput, hr, ?_, hqueue.trans hput⟩
      rw [posted, hput, List.drop_left]
      rfl
    · rw [Queue.put, if_neg hr] at hput
      exact .inl (silent hput)

theorem queueStep (w : World) (a : Act) : QueueStep w a := by
  cases a with
  | move m =>
    have hmap : ((w.scene.move m).2.accepted.map (⟨none, ·⟩ : QueueMessage → Post)).map
        Post.message = (w.scene.move m).2.accepted := by
      simp [List.map_map, Function.comp_def]
    cases w.scene.queueTurn m with
    | served q took p answer none waiting receiver same =>
      refine .takes q p ?_ ?_ answer waiting receiver
      · rw [taken, Moment.message?, took]
        rfl
      · rw [posted, none]
        rfl
    | ends unserved none waiting receiver running ended =>
      refine .loses ?_ ?_ waiting receiver
      · rw [taken, unserved]
        rfl
      · rw [posted, none]
        rfl
    | kept unserved waiting shut receiver phase =>
      refine .keeps ?_ ?_ ?_ receiver
      · rw [taken, unserved]
        rfl
      · rw [posted, hmap]
        exact waiting
      · intro hr
        rw [posted, shut hr]
        rfl
  | arrive => exact .keeps rfl (List.append_nil _).symm (fun _ => rfl) rfl
  | close => exact .keeps rfl (List.append_nil _).symm (fun _ => rfl) rfl
  | session j input =>
    rcases w.posted_session j input with ⟨hnone, hqueue⟩ | ⟨i, client, -, -, hr, hpost, hqueue⟩
    · refine .keeps rfl ?_ (fun _ => hnone) (congrArg Queue.receiver hqueue)
      rw [hnone, hqueue]
      exact (List.append_nil _).symm
    · refine .keeps rfl ?_ (fun h => ?_) (by rw [hqueue])
      · rw [hpost, hqueue]
        rfl
      · rw [hr] at h
        cases h

/-- All that was put was taken already, or waits, or is lost since nobody takes it any more. -/
inductive Flow (put taken waiting : List QueueMessage) (receiver : Bool) : Prop
  | running (all : put = taken ++ waiting)
  | shut (lost : List QueueMessage) (all : put = taken ++ lost) (waiting : waiting = [])
      (receiver : receiver = false)

variable {put taken : List QueueMessage}

/-- The message that is taken next is the first that was not taken yet. -/
theorem Flow.step (h : Flow put taken w.queue.waiting w.queue.receiver) (a : Act) :
    Flow (put ++ (w.posted a).map Post.message) (taken ++ w.taken a) (w.step a).queue.waiting
      (w.step a).queue.receiver := by
  cases w.queueStep a with
  | takes q p htaken hposted answer waiting receiver =>
    rw [hposted, htaken, List.map_nil, List.append_nil]
    cases h with
    | running all =>
      refine .running ?_
      rw [all, waiting, List.append_assoc]
      rfl
    | shut lost all none =>
      rw [none] at waiting
      cases waiting
  | loses htaken hposted waiting receiver =>
    rw [hposted, htaken, List.map_nil, List.append_nil, List.append_nil]
    cases h with
    | running all => exact .shut _ all waiting receiver
    | shut lost all => exact .shut lost all waiting receiver
  | keeps htaken waiting shut receiver =>
    rw [htaken, List.append_nil]
    cases h with
    | running all =>
      refine .running ?_
      rw [all, waiting, List.append_assoc]
    | shut lost all none hr =>
      have hposted := shut hr
      rw [hposted, none] at waiting
      rw [hposted, List.map_nil, List.append_nil]
      exact .shut lost all waiting (receiver.trans hr)

theorem flow_run (w : World) (acts : List Act) :
    Flow ((w.posts acts).map Post.message) (w.along World.taken acts)
      (w.after acts).queue.waiting (w.after acts).queue.receiver := by
  induction acts using List.reverseRecOn with
  | nil =>
    refine .running ?_
    simp [posts, along, List.map_map, Function.comp_def]
  | append_singleton acts a ih =>
    have hposts : w.posts (acts ++ [a]) = w.posts acts ++ (w.after acts).posted a := by
      rw [posts_append]
      simp [along]
    rw [hposts, List.map_append, along_concat, after_concat]
    exact ih.step a

/-- A message that is taken stands in the row of all messages at the place of its turn. -/
theorem getElem?_posts_of_taken {acts : List Act} {q : QueueMessage}
    (h : (w.after acts).taken a = [q]) :
    ((w.posts acts).map Post.message)[(w.along World.taken acts).length]? = some q := by
  cases (w.after acts).queueStep a with
  | takes q' p htaken hposted answer waiting receiver =>
    obtain rfl : q' = q := List.singleton_inj.1 (htaken.symm.trans h)
    cases w.flow_run acts with
    | running all =>
      rw [all, waiting]
      simp
    | shut lost all none =>
      rw [none] at waiting
      cases waiting
  | loses htaken =>
    rw [htaken] at h
    cases h
  | keeps htaken =>
    rw [htaken] at h
    cases h

theorem along_split {β : Type} {f : World → Act → List β} {acts : List Act} {n : Nat} {x : β}
    (h : (w.along f acts)[n]? = some x) :
    ∃ front a rest k, acts = front ++ a :: rest ∧ n = (w.along f front).length + k ∧
      (f (w.after front) a)[k]? = some x := by
  induction acts generalizing w n with
  | nil => simp [along] at h
  | cons a acts ih =>
    rw [along] at h
    by_cases hn : n < (f w a).length
    · rw [List.getElem?_append_left hn] at h
      exact ⟨[], a, acts, n, rfl, (Nat.zero_add n).symm, h⟩
    · rw [List.getElem?_append_right (Nat.not_lt.1 hn)] at h
      obtain ⟨front, b, rest, k, rfl, hlen, hb⟩ := ih h
      refine ⟨a :: front, b, rest, k, rfl, ?_, hb⟩
      rw [along, List.length_append]
      omega

theorem posts_split {acts : List Act} {n j : Nat} {q : QueueMessage}
    (h : (w.posts acts)[n]? = some ⟨some j, q⟩) :
    ∃ front i client rest, acts = front ++ .session j (.connect client) :: rest ∧
      (w.after front).phase j = .subscribed i ∧ q = .newConnection client ∧
      (w.posts front).length = n ∧
      (w.after front).posted (.session j (.connect client)) = [⟨some j, q⟩] := by
  rw [posts] at h
  by_cases hn : n < w.queue.waiting.length
  · rw [List.getElem?_append_left (by simpa using hn)] at h
    simp [hn] at h
  · rw [List.getElem?_append_right (by simpa using hn), List.length_map] at h
    obtain ⟨front, a, rest, k, rfl, hlen, ha⟩ := along_split h
    have hmem := List.mem_of_getElem? ha
    cases a with
    | move m => simp [posted] at hmem
    | arrive => simp [posted] at hmem
    | close => simp [posted] at hmem
    | session l input =>
      rcases (w.after front).posted_session l input with
        ⟨hnone, -⟩ | ⟨i, client, hphase, rfl, -, hpost, -⟩
      · rw [hnone] at hmem
        cases hmem
      · rw [hpost] at ha hmem
        obtain ⟨rfl, rfl⟩ : j = l ∧ q = .newConnection client := by simpa using hmem
        have hk : k < 1 := (List.getElem?_eq_some_iff.1 ha).1
        refine ⟨front, i, client, rest, rfl, hphase, rfl, ?_, hpost⟩
        rw [posts, List.length_append, List.length_map]
        omega

theorem taken_split {acts : List Act} {n : Nat} (h : n < (w.along World.taken acts).length) :
    ∃ front m rest q p, acts = front ++ .move m :: rest ∧
      (w.along World.taken front).length = n ∧ (w.after front).taken (.move m) = [q] ∧
      (w.after front).emitted (.move m) = [.status p] := by
  obtain ⟨front, a, rest, k, rfl, hlen, ha⟩ := along_split (List.getElem?_eq_getElem h)
  cases (w.after front).queueStep a with
  | takes q p htaken hposted answer =>
    rw [htaken] at ha
    have hk : k < 1 := (List.getElem?_eq_some_iff.1 ha).1
    cases a with
    | move m => exact ⟨front, m, rest, q, p, rfl, by omega, htaken, answer⟩
    | _ => cases htaken
  | loses htaken =>
    rw [htaken] at ha
    cases ha
  | keeps htaken =>
    rw [htaken] at ha
    cases ha

theorem subscribe_split {acts : List Act} {j i : Nat} (none : w.sessions = [])
    (h : ((w.after acts).phase j).receiver? = some i) :
    ∃ front rest, acts = front ++ .session j .subscribe :: rest ∧
      (w.after front).phase j = .arriving := by
  induction acts using List.reverseRecOn with
  | nil =>
    rw [after_nil, phase, none] at h
    cases h
  | append_singleton acts a ih =>
    -- Either the channel listened before the last act, or that is how it began.
    have later (h : ((w.after acts).phase j).receiver? = some i) :
        ∃ front rest, acts ++ [a] = front ++ .session j .subscribe :: rest ∧
          (w.after front).phase j = .arriving := by
      obtain ⟨front, rest, rfl, hphase⟩ := ih h
      exact ⟨front, rest ++ [a], by simp, hphase⟩
    rw [after_concat] at h
    cases a with
    | move m => exact later h
    | close => exact later h
    | arrive =>
      rw [arrive_receiver?] at h
      exact later h
    | session k input =>
      by_cases hk : j = k
      · subst k
        obtain ⟨uses, turn⟩ := SessionPhase.turn_of_step (w.after acts).relay
          ((w.after acts).phase j) input
        rw [step_phase_self] at h
        rcases turn.begins h with h | ⟨hphase, rfl⟩
        · exact later h
        · exact ⟨acts, [], rfl, hphase⟩
      · rw [step_phase_other _ _ _ hk] at h
        exact later h

end

end SearchRelay.World
