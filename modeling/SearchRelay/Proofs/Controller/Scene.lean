import SearchRelay.Controller.Task

/-!
A controller among everything that can happen around it. Its run may take any input that is there,
in any order; people ask for a stop, put messages, come and go as senders, and time passes.
-/

namespace SearchRelay

def RunPhase.isRunning : RunPhase → Bool
  | indexing | serving => true
  | _ => false

structure Scene where
  task : ControllerTask
  around : Surroundings
  inFlight : Nat := 0

inductive Move
  | begin
  | heedStop
  | endScan (result : Except ControllerError FileIndex)
  | serveQueue
  | tick
  | requestStop
  | put (m : QueueMessage)
  | cloneSender
  | dropSender (i : Nat)
  | advance (milliseconds : Nat)

structure Moment where
  input : Option ControllerInput := none
  output : ControllerOutput := {}
  accepted : List QueueMessage := []

abbrev History := List Moment

namespace Scene

/-- The input that the run takes at a move; none if it is not ready for that. -/
def input? (s : Scene) : Move → Option ControllerInput
  | .begin =>
    match s.task.controller.phase with
    | .idle => some .start
    | _ => none
  | .heedStop =>
    if s.task.stopRequested && s.task.controller.phase.isRunning then some .stop else none
  | .endScan result =>
    if 0 < s.inFlight && s.task.controller.isScanning then some (.scanned result) else none
  | .serveQueue =>
    if s.task.controller.wantsMessage then
      match s.around.queue.get.1 with
      | .message m => some (.message m)
      | .ended => some .queueEnded
      | .pending => none
    else none
  | .tick =>
    if s.task.isTickDue s.around.clock then some (.tick (s.around.draw s.task.ticks)) else none
  | _ => none

/-- What makes the run ready to take an input at a move. -/
inductive Ready (s : Scene) : Move → ControllerInput → Prop
  | begin (idle : s.task.controller.phase = .idle) : Ready s .begin .start
  | heedStop (asked : s.task.stopRequested) (running : s.task.controller.phase.isRunning) :
      Ready s .heedStop .stop
  | endScan (inFlight : 0 < s.inFlight) (scanning : s.task.controller.isScanning)
      (result : Except ControllerError FileIndex) : Ready s (.endScan result) (.scanned result)
  | serveQueue (wants : s.task.controller.wantsMessage) {q : QueueMessage}
      (front : s.around.queue.get.1 = .message q) : Ready s .serveQueue (.message q)
  | noticeEnd (wants : s.task.controller.wantsMessage)
      (front : s.around.queue.get.1 = .ended) : Ready s .serveQueue .queueEnded
  | tick (due : s.task.isTickDue s.around.clock) :
      Ready s .tick (.tick (s.around.draw s.task.ticks))

section

variable {s : Scene} {m : Move} {input : ControllerInput}

theorem Ready.input?_eq (h : Ready s m input) : s.input? m = some input := by
  cases h with
  | begin idle => simp [input?, idle]
  | heedStop asked running => simp [input?, asked, running]
  | endScan inFlight scanning result => simp [input?, inFlight, scanning]
  | serveQueue wants front | noticeEnd wants front => simp [input?, wants, front]
  | tick due => simp [input?, due]

theorem ready_of_input? (h : s.input? m = some input) : Ready s m input := by
  cases m with
  | begin =>
    cases hp : s.task.controller.phase with
    | idle =>
      obtain rfl : .start = input := by simpa [input?, hp] using h
      exact .begin hp
    | _ => simp [input?, hp] at h
  | heedStop =>
    obtain ⟨⟨asked, running⟩, rfl⟩ : (_ ∧ _) ∧ .stop = input := by simpa [input?] using h
    exact .heedStop asked running
  | endScan result =>
    obtain ⟨⟨inFlight, scanning⟩, rfl⟩ : (_ ∧ _) ∧ .scanned result = input := by
      simpa [input?] using h
    exact .endScan inFlight scanning result
  | serveQueue =>
    cases hw : s.task.controller.wantsMessage with
    | false => simp [input?, hw] at h
    | true =>
      cases hq : s.around.queue.get.1 with
      | message q =>
        obtain rfl : .message q = input := by simpa [input?, hw, hq] using h
        exact .serveQueue hw hq
      | ended =>
        obtain rfl : .queueEnded = input := by simpa [input?, hw, hq] using h
        exact .noticeEnd hw hq
      | pending => simp [input?, hw, hq] at h
  | tick =>
    obtain ⟨due, rfl⟩ : _ ∧ .tick _ = input := by simpa [input?] using h
    exact .tick due
  | _ => simp [input?] at h

end

def withQueue (s : Scene) (queue : Queue QueueMessage) : Scene :=
  { s with around := { s.around with queue } }

/-- A move in which the run has no part. A scan that nobody waits for is over all the same. -/
def aside (s : Scene) : Move → Scene × List QueueMessage
  | .endScan _ => ({ s with inFlight := s.inFlight - 1 }, [])
  | .requestStop => ({ s with task := s.task.stop.2.1 }, [])
  | .put m =>
    match s.around.queue.put m with
    | (.accepted, queue) => (s.withQueue queue, [m])
    | (.closed _, queue) => (s.withQueue queue, [])
  | .cloneSender => (s.withQueue s.around.queue.clone.2, [])
  | .dropSender i => (s.withQueue (s.around.queue.dropSender i), [])
  | .advance ms => ({ s with around := { s.around with clock := s.around.clock + ms } }, [])
  | _ => (s, [])

def scansOver : ControllerInput → Nat
  | .scanned _ => 1
  | _ => 0

def move (s : Scene) (m : Move) : Scene × Moment :=
  match s.input? m with
  | some input =>
    let (task, around, output) := s.task.take s.around input
    (⟨task, around, s.inFlight - scansOver input + output.scans⟩, { input := some input, output })
  | none =>
    let (s, accepted) := s.aside m
    (s, { accepted })

theorem move_input (s : Scene) (m : Move) : (s.move m).2.input = s.input? m := by
  cases h : s.input? m <;> simp [move, h]

theorem Ready.taken {s : Scene} {m : Move} {input : ControllerInput} (ready : Ready s m input) :
    (s.move m).2.input = some input := (s.move_input m).trans ready.input?_eq

theorem move_put (s : Scene) (q : QueueMessage) :
    (s.move (.put q)).1 = s.withQueue (s.around.queue.put q).2 ∧
      (s.move (.put q)).2.output = {} := by
  by_cases hr : s.around.queue.receiver <;> simp [move, input?, aside, Queue.put, hr]

def run (s : Scene) : List Move → Scene × History
  | [] => (s, [])
  | m :: r =>
    let (s, x) := s.move m
    let (s, h) := s.run r
    (s, x :: h)

theorem run_cons (s : Scene) (m : Move) (ms : List Move) :
    s.run (m :: ms) =
      (((s.move m).1.run ms).1, (s.move m).2 :: ((s.move m).1.run ms).2) := rfl

theorem run_append (s : Scene) (ms more : List Move) :
    s.run (ms ++ more) =
      (((s.run ms).1.run more).1, (s.run ms).2 ++ ((s.run ms).1.run more).2) := by
  induction ms generalizing s with
  | nil => rfl
  | cons m ms ih => simp only [List.cons_append, run_cons, ih]

def after (s : Scene) (ms : List Move) : Scene := (s.run ms).1

def past (s : Scene) (ms : List Move) : History := (s.run ms).2

def moment (s : Scene) (ms : List Move) (m : Move) : Moment := ((s.after ms).move m).2

theorem after_append (s : Scene) (ms more : List Move) :
    s.after (ms ++ more) = (s.after ms).after more := by
  rw [after, run_append]
  rfl

theorem past_append (s : Scene) (ms more : List Move) :
    s.past (ms ++ more) = s.past ms ++ (s.after ms).past more := by
  rw [past, run_append]
  rfl

theorem after_concat (s : Scene) (ms : List Move) (m : Move) :
    s.after (ms ++ [m]) = ((s.after ms).move m).1 := after_append s ms [m]

theorem past_concat (s : Scene) (ms : List Move) (m : Move) :
    s.past (ms ++ [m]) = s.past ms ++ [s.moment ms m] := past_append s ms [m]

theorem moment_append (s : Scene) (ms more : List Move) (m : Move) :
    s.moment (ms ++ more) m = (s.after ms).moment more m := by
  rw [moment, moment, after_append]

/-- What every move keeps, with what it adds to the history, holds along every run. -/
theorem run_keeps {P : History → Scene → Prop}
    (step : ∀ h s m, P h s → P (h ++ [(s.move m).2]) (s.move m).1)
    {h : History} {s : Scene} (hs : P h s) (ms : List Move) : P (h ++ s.past ms) (s.after ms) := by
  induction ms generalizing h s with
  | nil => simpa [past, after, run] using hs
  | cons m ms ih => simpa [past, after, run_cons] using ih (step h s m hs)

def opening (controller : Controller) (around : Surroundings) : Scene :=
  { task := { controller }, around }

end Scene

namespace Moment

def result? (m : Moment) : Option (Except ControllerError FileIndex) :=
  match m.input with
  | some (.scanned result) => some result
  | _ => none

def success? (m : Moment) : Option FileIndex := m.result?.bind Except.toOption

def message? (m : Moment) : Option QueueMessage :=
  match m.input with
  | some (.message q) => some q
  | _ => none

end Moment

namespace History

def events (h : History) : List ControllerEvent := h.flatMap fun m => m.output.events

def results (h : History) : List (Except ControllerError FileIndex) := h.filterMap Moment.result?

def successes (h : History) : List FileIndex := h.filterMap Moment.success?

def consumed (h : History) : List QueueMessage := h.filterMap Moment.message?

def accepted (h : History) : List QueueMessage := h.flatMap Moment.accepted

section

variable (h : History) (m : Moment)

theorem events_append (k : History) : events (h ++ k) = h.events ++ k.events :=
  List.flatMap_append

@[simp] theorem events_concat : events (h ++ [m]) = h.events ++ m.output.events := by
  simp [events]

theorem successes_eq : h.successes = h.results.filterMap Except.toOption := by
  simp only [successes, results, List.filterMap_filterMap]
  rfl

@[simp] theorem results_concat : results (h ++ [m]) = h.results ++ m.result?.toList := by
  cases hr : m.result? <;> simp [results, hr]

@[simp] theorem successes_concat : successes (h ++ [m]) = h.successes ++ m.success?.toList := by
  cases hs : m.success? <;> simp [successes, hs]

@[simp] theorem consumed_concat : consumed (h ++ [m]) = h.consumed ++ m.message?.toList := by
  cases hq : m.message? <;> simp [consumed, hq]

@[simp] theorem accepted_concat : accepted (h ++ [m]) = h.accepted ++ m.accepted := by
  simp [accepted]

end

end History

end SearchRelay
