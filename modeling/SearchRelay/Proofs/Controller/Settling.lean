import SearchRelay.Proofs.Controller.Lasting

/-!
A task that settles takes its inputs in one of the orders in which a run may take them, so whatever
is true of all runs is true of it.
-/

namespace SearchRelay

/-- The moves at which a run takes an input; whatever else there is comes from others. -/
def Move.isOwn : Move → Bool
  | .begin | .heedStop | .endScan _ | .serveQueue | .tick => true
  | _ => false

namespace History

def logs (h : History) : List LogEntry := h.flatMap fun m => m.output.logs

end History

namespace Scene

variable {s : Scene}

/-- A controller waits for no scan but one that is in flight. -/
def Attended (s : Scene) : Prop := ∀ c, s.task.controller = .real c → OneScan s c

theorem Attended.inFlight (h : Attended s) (hs : s.task.controller.isScanning) :
    0 < s.inFlight := by
  cases hc : s.task.controller with
  | real c =>
    rw [hc] at hs
    rw [(h c hc).busy hs]
    exact Nat.one_pos
  | mock c =>
    rw [hc] at hs
    exact nomatch hs

theorem Attended.move (h : Attended s) (m : Move) : Attended (s.move m).1 := by
  cases hc : s.task.controller with
  | real c =>
    obtain ⟨c', hc', p⟩ := move_passage hc m
    intro c'' hc''
    obtain rfl : c' = c'' := Controller.real.inj (hc'.symm.trans hc'')
    exact (h c hc).passage p
  | mock c =>
    intro c' hc'
    have hkind := (s.move_lasting m).kind
    rw [hc, hc'] at hkind
    exact nomatch hkind

theorem move_of_nextInput (h : Attended s) {input : ControllerInput}
    (hnext : s.task.nextInput s.around = some input) : ∃ m, m.isOwn ∧ Ready s m input := by
  simp only [ControllerTask.nextInput] at hnext
  split at hnext
  · rename_i hp
    obtain rfl := Option.some.inj hnext
    exact ⟨.begin, rfl, .begin hp⟩
  · cases hnext
  · rename_i hidle hended
    have running : s.task.controller.phase.isRunning := by
      cases hp : s.task.controller.phase with
      | idle => exact absurd hp hidle
      | ended r => exact absurd hp (hended r)
      | _ => rfl
    split at hnext
    · rename_i asked
      obtain rfl := Option.some.inj hnext
      exact ⟨.heedStop, rfl, .heedStop asked running⟩
    · split at hnext
      · rename_i hscan
        rw [Bool.and_eq_true] at hscan
        obtain rfl := Option.some.inj hnext
        exact ⟨.endScan _, rfl, .endScan (h.inFlight hscan.1) hscan.1 _⟩
      · cases hw : s.task.controller.wantsMessage with
        | false =>
          rw [hw] at hnext
          obtain ⟨due, rfl⟩ : _ ∧ .tick _ = input := by simpa using hnext
          exact ⟨.tick, rfl, .tick due⟩
        | true =>
          rw [hw] at hnext
          cases hq : s.around.queue.get.1 with
          | message q =>
            obtain rfl : .message q = input := by simpa [hq] using hnext
            exact ⟨.serveQueue, rfl, .serveQueue hw hq⟩
          | ended =>
            obtain rfl : .queueEnded = input := by simpa [hq] using hnext
            exact ⟨.serveQueue, rfl, .noticeEnd hw hq⟩
          | pending =>
            obtain ⟨due, rfl⟩ : _ ∧ .tick _ = input := by simpa [hq] using hnext
            exact ⟨.tick, rfl, .tick due⟩

structure Settles (s : Scene) (ms : List Move) (o : ControllerOutput)
    (r : ControllerTask × Surroundings × ControllerOutput) : Prop where
  own : ∀ m ∈ ms, m.isOwn
  task : r.1 = (s.after ms).task
  around : r.2.1 = (s.after ms).around
  events : r.2.2.events = o.events ++ (s.past ms).events
  logs : r.2.2.logs = o.logs ++ (s.past ms).logs

theorem settleLoop_is_run (fuel : Nat) (o : ControllerOutput) (h : Attended s) :
    ∃ ms, Settles s ms o (ControllerTask.settleLoop fuel s.task s.around o) := by
  have stay (s : Scene) (o : ControllerOutput) : Settles s [] o (s.task, s.around, o) :=
    ⟨List.forall_mem_nil _, rfl, rfl, (List.append_nil _).symm, (List.append_nil _).symm⟩
  induction fuel generalizing s o with
  | zero => exact ⟨[], stay s o⟩
  | succ fuel ih =>
    rw [ControllerTask.settleLoop]
    split
    · exact ⟨[], stay s o⟩
    · split
      · exact ⟨[], stay s o⟩
      · rename_i input hnext
        obtain ⟨m, hown, ready⟩ := move_of_nextInput h hnext
        have hmove : (s.move m).1.task = (s.task.take s.around input).1 ∧
            (s.move m).1.around = (s.task.take s.around input).2.1 ∧
            (s.move m).2.output = (s.task.take s.around input).2.2 := by
          simp only [move, ready.input?_eq, and_self]
        obtain ⟨ms, run⟩ := ih (o ++ (s.move m).2.output) (h.move m)
        rw [hmove.1, hmove.2.1, hmove.2.2] at run
        refine ⟨m :: ms, List.forall_mem_cons.2 ⟨hown, run.own⟩, run.task, run.around, ?_, ?_⟩
        · rw [run.events, ← hmove.2.2]
          exact List.append_assoc _ _ _
        · rw [run.logs, ← hmove.2.2]
          exact List.append_assoc _ _ _

/-- Whatever a task does when it settles, a run does too. -/
theorem settle_is_run (h : Attended s) :
    ∃ ms, Settles s ms {} (s.task.settle s.around) :=
  settleLoop_is_run _ {} h

end Scene

end SearchRelay
