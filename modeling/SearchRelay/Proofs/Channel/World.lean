import Mathlib.Data.List.Induction
import SearchRelay.Proofs.Channel.Turn
import SearchRelay.Proofs.Controller.Passage

/-!
A controller and the channels of its clients, all of them at their own pace. What happens to the
controller is a run of its scene, and what happens to the events is a run of their broadcast.
-/

namespace SearchRelay

structure World where
  scene : Scene
  events : Broadcast Emit
  closing : StopLatch := {}
  clients : Nat := 0
  sessions : List SessionPhase := []

inductive Act
  | move (m : Move)
  | arrive
  | session (j : Nat) (input : SessionInput)
  | close

namespace World

def relay (w : World) : Relay :=
  { queue := w.scene.around.queue, events := w.events, closing := w.closing, clients := w.clients }

def phase (w : World) (j : Nat) : SessionPhase := w.sessions.getD j .ended

def heed (w : World) (j : Nat) (input : SessionInput) :
    SessionPhase × Relay × SessionOutput :=
  (w.phase j).step w.relay input

def announced (w : World) (m : Move) : List ControllerEvent := (w.scene.move m).2.output.events

def step (w : World) : Act → World
  | .move m =>
    { w with
      scene := (w.scene.move m).1
      events := (w.events.run ((w.announced m).map fun e => .send e.toEmit)).2 }
  | .arrive => { w with sessions := w.sessions ++ [.arriving] }
  | .session j input =>
    let (phase, relay, _) := w.heed j input
    { scene := w.scene.withQueue relay.queue, events := relay.events, closing := relay.closing,
      clients := relay.clients, sessions := w.sessions.set j phase }
  | .close => { w with closing := w.closing.request.2 }

def after (w : World) (acts : List Act) : World := acts.foldl step w

def along {β : Type} (f : World → Act → List β) (w : World) : List Act → List β
  | [] => []
  | a :: r => f w a ++ along f (w.step a) r

def emitted (w : World) : Act → List ControllerEvent
  | .move m => w.announced m
  | _ => []

def received (j : Nat) (w : World) : Act → List Emit
  | .session k input => if k = j then (w.phase k).gets w.relay input else []
  | _ => []

def texts (j : Nat) (w : World) : Act → List String
  | .session k input => if k = j then (w.heed k input).2.2.frames.filterMap Frame.text? else []
  | _ => []

section

variable {β : Type} (f : World → Act → List β) (w : World)

@[simp] theorem after_nil : w.after [] = w := rfl

theorem after_cons (a : Act) (acts : List Act) : w.after (a :: acts) = (w.step a).after acts := rfl

theorem after_append (acts more : List Act) :
    w.after (acts ++ more) = (w.after acts).after more := List.foldl_append

theorem after_concat (acts : List Act) (a : Act) :
    w.after (acts ++ [a]) = (w.after acts).step a := w.after_append acts [a]

theorem along_append (acts more : List Act) :
    w.along f (acts ++ more) = w.along f acts ++ (w.after acts).along f more := by
  induction acts generalizing w with
  | nil => rfl
  | cons a acts ih => simp only [List.cons_append, along, ih, after_cons, List.append_assoc]

theorem along_concat (acts : List Act) (a : Act) :
    w.along f (acts ++ [a]) = w.along f acts ++ f (w.after acts) a := by
  rw [along_append]
  simp [along]

end

/-- What an act does to the scene is a run of it. -/
theorem step_scene (w : World) (a : Act) :
    ∃ ms, (w.step a).scene = w.scene.after ms ∧ w.emitted a = (w.scene.past ms).events := by
  cases a with
  | move m => exact ⟨[m], rfl, (List.append_nil _).symm⟩
  | arrive => exact ⟨[], rfl, rfl⟩
  | close => exact ⟨[], rfl, rfl⟩
  | session j input =>
    obtain ⟨uses, turn⟩ := SessionPhase.turn_of_step w.relay (w.phase j) input
    have hscene : (w.step (.session j input)).scene =
        w.scene.withQueue (w.heed j input).2.1.queue := rfl
    rcases turn.queue_eq with hq | ⟨-, client, -, -, hq⟩
    · exact ⟨[], by rw [hscene, heed, hq]; rfl, rfl⟩
    · obtain ⟨hput, hout⟩ := w.scene.move_put (.newConnection client)
      refine ⟨[.put (.newConnection client)], ?_, ?_⟩
      · rw [hscene, heed, hq]
        exact hput.symm
      · simp [emitted, Scene.past, Scene.run, History.events, hout]

/-- What happens to the scene of a world is a run of it. -/
theorem run_scene (w : World) (acts : List Act) :
    ∃ ms, (w.after acts).scene = w.scene.after ms ∧
      w.along emitted acts = (w.scene.past ms).events := by
  induction acts using List.reverseRecOn with
  | nil => exact ⟨[], rfl, rfl⟩
  | append_singleton acts a ih =>
    obtain ⟨ms, hs, he⟩ := ih
    obtain ⟨more, hs', he'⟩ := (w.after acts).step_scene a
    refine ⟨ms ++ more, ?_, ?_⟩
    · rw [after_concat, hs', hs, Scene.after_append]
    · rw [along_concat, he, he', hs, Scene.past_append, History.events_append]

theorem step_events (w : World) (a : Act) :
    ∃ uses, (w.step a).events = (w.events.run uses).2 := by
  cases a with
  | move m => exact ⟨_, rfl⟩
  | arrive => exact ⟨[], rfl⟩
  | close => exact ⟨[], rfl⟩
  | session j input =>
    obtain ⟨uses, turn⟩ := SessionPhase.turn_of_step w.relay (w.phase j) input
    exact ⟨uses, turn.events_eq⟩

theorem run_events (w : World) (acts : List Act) :
    ∃ uses, (w.after acts).events = (w.events.run uses).2 := by
  induction acts using List.reverseRecOn with
  | nil => exact ⟨[], rfl⟩
  | append_singleton acts a ih =>
    obtain ⟨uses, h⟩ := ih
    obtain ⟨more, h'⟩ := (w.after acts).step_events a
    refine ⟨uses ++ more, ?_⟩
    rw [after_concat, h', h, Broadcast.run_append]

def opening (root : Path) (masks : List String) (period : Option Nat) (around : Surroundings)
    (events : Broadcast Emit) : World :=
  { scene := .realOpening root masks period around, events }

end World

end SearchRelay
