import SearchRelay.Controller.Rehearsal
import SearchRelay.Proofs.Controller.Course
import SearchRelay.Proofs.FileIndex.Scan
import SearchRelay.Proofs.Files.Stranding

namespace SearchRelay

open FileSystem

variable {fs : FileSystem} {root : Path} {masks : List String} {interval : Nat}

theorem FileNode.isDirectory_iff {n : FileNode} :
    n.isDirectory ↔ ∃ entries, n = .directory entries := by
  cases n <;> simp [isDirectory]

theorem IoError.isNotFound_iff {e : IoError} : e.isNotFound ↔ e = .system .notFound := by
  cases e with
  | nulInPath => simp [isNotFound]
  | system why => cases why <;> simp [isNotFound]

/-- What a root is found to be, when a controller is made for it and when it is scanned. -/
inductive Verdicts (fs : FileSystem) (root : Path) (masks : List String) :
    Except ControllerError RealController → Except ControllerError FileIndex → Prop
  | usable {entries : FileNode.Entries} (there : fs.Resolves root (.directory entries))
      (period : Option Nat) (index : FileIndex) :
      Verdicts fs root masks (.ok (.fresh root masks period)) (.ok index)
  | noDirectory {n : FileNode} (there : fs.Resolves root n) (other : n.isDirectory = false) :
      Verdicts fs root masks (.error (.rootNotDirectory root))
        (.error (.rootNotDirectory root))
  | missing (nothing : fs.Unresolved root (.system .notFound)) :
      Verdicts fs root masks (.error (.rootNotFound root)) (.error (.rootNotFound root))
  /-- A scan does not say what stands in its way. -/
  | obstructed {e : IoError} (why : fs.Unresolved root e) (other : e ≠ .system .notFound) :
      Verdicts fs root masks (.error (.io root e)) (.error (.rootNotFound root))

theorem FileIndex.scan_directory {n : FileNode} (h : fs.lookup root = .ok n)
    (hdir : n.isDirectory) (masks : List String) : ∃ i, scan fs root masks = .ok i := by
  rw [scan_of_lookup h, hdir, if_neg (by decide)]
  by_cases hroot : root.components = standardInput
  · exact ⟨_, if_pos hroot⟩
  · exact ⟨_, if_neg hroot⟩

theorem RealController.ofSettings_directory {n : FileNode} (h : fs.lookup root = .ok n)
    (hdir : n.isDirectory) (masks : List String) (interval : Nat) :
    ∃ period, ofSettings fs root masks interval = .ok (.fresh root masks period) := by
  simp only [ofSettings, h, hdir, if_true]
  exact ⟨_, rfl⟩

theorem root_verdicts (fs : FileSystem) (root : Path) (masks : List String) (interval : Nat) :
    Verdicts fs root masks (RealController.ofSettings fs root masks interval)
      (FileIndex.scan fs root masks) := by
  cases hlookup : fs.lookup root with
  | error e =>
    have why := lookup_error_iff.1 hlookup
    rw [FileIndex.scan_missing fun n hn => nomatch hlookup.symm.trans hn]
    by_cases hnone : e = .system .notFound
    · subst hnone
      simp only [RealController.ofSettings, hlookup, IoError.isNotFound, if_true]
      exact .missing why
    · simp only [RealController.ofSettings, hlookup, mt IoError.isNotFound_iff.1 hnone]
      exact .obstructed why hnone
  | ok n =>
    have there := lookup_ok_iff.1 hlookup
    cases hdir : n.isDirectory with
    | false =>
      rw [FileIndex.scan_of_lookup hlookup]
      simp only [RealController.ofSettings, hlookup, hdir, Bool.not_false, if_true]
      exact .noDirectory there hdir
    | true =>
      obtain ⟨period, hmade⟩ := RealController.ofSettings_directory hlookup hdir masks interval
      obtain ⟨i, hscan⟩ := FileIndex.scan_directory hlookup hdir masks
      obtain ⟨entries, rfl⟩ := FileNode.isDirectory_iff.1 hdir
      rw [hmade, hscan]
      exact .usable there period i

namespace Verdicts

variable {p : Path} {e : IoError} {made : Except ControllerError RealController}
  {found : Except ControllerError FileIndex}

theorem fresh {c : RealController} (v : Verdicts fs root masks made found) (h : made = .ok c) :
    ∃ period, c = .fresh root masks period := by
  cases v with
  | usable there period => exact ⟨period, (Except.ok.inj h).symm⟩
  | _ => cases h

theorem made_iff (v : Verdicts fs root masks made found) :
    (∃ c, made = .ok c) ↔ ∃ i, found = .ok i := by
  cases v <;> simp

theorem usable_iff (v : Verdicts fs root masks made found) :
    (∃ c, made = .ok c) ↔ ∃ entries, fs.Resolves root (.directory entries) := by
  cases v with
  | usable there => exact iff_of_true ⟨_, rfl⟩ ⟨_, there⟩
  | @noDirectory n there other =>
    refine iff_of_false (by simp) ?_
    rintro ⟨entries, hdir⟩
    obtain rfl := there.unique hdir
    cases other
  | missing why | obstructed why =>
    exact iff_of_false (by simp) fun ⟨_, hdir⟩ => why.not_resolves hdir

theorem notDirectory_iff (v : Verdicts fs root masks made found) :
    made = .error (.rootNotDirectory p) ↔ found = .error (.rootNotDirectory p) := by
  cases v <;> simp

theorem notFound_iff (v : Verdicts fs root masks made found) :
    found = .error (.rootNotFound p) ↔
      made = .error (.rootNotFound p) ∨ ∃ e, made = .error (.io p e) := by
  cases v <;> simp

theorem missing_iff (v : Verdicts fs root masks made found) :
    made = .error (.rootNotFound p) ↔ p = root ∧ fs.Unresolved root (.system .notFound) := by
  cases v with
  | usable there | noDirectory there =>
    exact iff_of_false nofun fun h => h.2.not_resolves there
  | missing nothing => simp [nothing, eq_comm]
  | obstructed why other => exact iff_of_false nofun fun h => other (why.unique h.2)

theorem obstructed_iff (v : Verdicts fs root masks made found) :
    made = .error (.io p e) ↔ p = root ∧ fs.Unresolved root e ∧ e ≠ .system .notFound := by
  cases v with
  | usable there | noDirectory there =>
    exact iff_of_false nofun fun h => h.2.1.not_resolves there
  | missing nothing => exact iff_of_false nofun fun h => h.2.2 (h.2.1.unique nothing)
  | @obstructed e' why other =>
    simp only [Except.error.injEq, ControllerError.io.injEq]
    constructor
    · rintro ⟨rfl, rfl⟩
      exact ⟨rfl, why, other⟩
    · rintro ⟨rfl, h, -⟩
      exact ⟨rfl, why.unique h⟩

end Verdicts

/-- Links that lead in circles are refused by both, and the scan does not say why. -/
theorem circle_verdicts {ring : String → Prop} {name : String} {more : List String}
    (links : ∀ name, ring name → (name ≠ "." ∧ name ≠ "..") ∧
      name.utf8ByteSize ≤ maxNameLength ∧ ∃ target next, ring next ∧
        fs.root.at? (fs.workingDirectory ++ [name]) = some (.link target) ∧
          target.isAbsolute = false ∧ pathNames target = [next])
    (first : ring name) (names : pathNames root = name :: more) (relative : root.isAbsolute = false)
    (noNul : '\x00' ∉ root.toList) (short : root.utf8ByteSize ≤ maxPathLength)
    (masks : List String) (interval : Nat) :
    RealController.ofSettings fs root masks interval =
        .error (.io root (.system .tooManyLinks)) ∧
      FileIndex.scan fs root masks = .error (.rootNotFound root) := by
  have v := root_verdicts fs root masks interval
  have notEmpty : root ≠ "" := by
    rintro rfl
    exact nomatch (show pathNames "" = [] by decide +kernel).symm.trans names
  have strands := strands_of_ring links first maxLinks more
  have why : fs.Unresolved root (.system .tooManyLinks) := by
    refine .strands noNul notEmpty short ?_
    rwa [relative, if_neg Bool.false_ne_true, names]
  have hmade := v.obstructed_iff.2 ⟨rfl, why, by decide⟩
  exact ⟨hmade, v.notFound_iff.2 (.inr ⟨_, hmade⟩)⟩

namespace Scene

theorem mem_results {s : Scene} {ms : List Move} {r : Except ControllerError FileIndex}
    (h : r ∈ (s.past ms).results) : .endScan r ∈ ms := by
  induction ms generalizing s with
  | nil => cases h
  | cons m ms ih =>
    have hcons : (s.past (m :: ms)).results =
        (s.move m).2.result?.toList ++ ((s.move m).1.past ms).results := by
      rw [past, run_cons, History.results, List.filterMap_cons]
      cases (s.move m).2.result? <;> rfl
    rw [hcons, List.mem_append, Option.mem_toList] at h
    rcases h with h | h
    · have hinput : s.input? m = some (.scanned r) := by
        rw [← move_input]
        unfold Moment.result? at h
        split at h
        · rename_i hin
          rw [hin, Option.mem_some_iff.1 h]
        · cases h
      cases ready_of_input? hinput
      exact List.mem_cons_self
    · exact List.mem_cons_of_mem m (ih h)

/-- A run ends with no error but that of one of its scans. -/
theorem failed_scan {period : Option Nat} {around : Surroundings} {ms : List Move}
    {e : ControllerError}
    (h : ((realOpening root masks period around).after ms).task.controller.phase =
      .ended (.error e)) : .endScan (.error e) ∈ ms := by
  obtain ⟨c, hc, -, -, course, -⟩ := run_invariant root masks period around ms
  have hphase : c.phase = .ended (.error e) := by
    rw [hc] at h
    exact h
  rw [hphase] at course
  refine mem_results (s := realOpening root masks period around) ?_
  rw [course.results_of_failed]
  exact List.mem_singleton_self _

end Scene

namespace Rehearsal

inductive Act
  | settle
  | spawn
  | stop
  | shutdown (drain : Nat)
  | put (messages : List QueueMessage)
  | closeQueue
  | advance (milliseconds : Nat)
  | untilReady (milliseconds : Nat)
  | hold
  | release
  | changeFiles (changes : List TreeChange)

def act (r : Rehearsal) : Act → Rehearsal × List ControllerEvent
  | .settle => (r.settle.1, r.settle.2.events)
  | .spawn => (r.spawn.2, [])
  | .stop => (r.stop.2.1, [])
  | .shutdown drain => ((r.shutdown drain).2.1, (r.shutdown drain).2.2.events)
  | .put messages => ((r.putMany messages).2, [])
  | .closeQueue => (r.closeQueue.2, [])
  | .advance ms => (r.advance ms, [])
  | .untilReady ms => ((r.untilReady ms).2.1, (r.untilReady ms).2.2.events)
  | .hold => (r.hold, [])
  | .release => (r.release.2, [])
  | .changeFiles changes => (r.changeFiles changes, [])

def run (r : Rehearsal) : List Act → Rehearsal × List ControllerEvent
  | [] => (r, [])
  | a :: rest =>
    let (r, events) := r.act a
    let (r, more) := r.run rest
    (r, events ++ more)

structure Bereft (r : Rehearsal) : Prop where
  stage : r.stage = .gone
  receiver : r.surroundings.queue.receiver = false

namespace Bereft

variable {r : Rehearsal}

theorem kind (h : Bereft r) : r.kind = .error .noController := by
  rw [Rehearsal.kind, h.stage]
  rfl

theorem spawn (h : Bereft r) : r.spawn = (.error .noController, r) := by
  rw [Rehearsal.spawn, h.stage]

theorem closed (h : Bereft r) : r.surroundings.queue.isClosed := by
  rw [Queue.isClosed, h.receiver]
  rfl

theorem queue_put (h : Bereft r) (m : QueueMessage) :
    r.surroundings.queue.put m = (.closed m, r.surroundings.queue) := by
  rw [Queue.put, h.receiver]
  rfl

theorem put (h : Bereft r) (m : QueueMessage) : Bereft (r.put m).2 := by
  unfold Rehearsal.put
  split
  · rw [h.queue_put]
    exact ⟨h.stage, h.receiver⟩
  · exact h

theorem putMany (h : Bereft r) (messages : List QueueMessage) : Bereft (r.putMany messages).2 := by
  induction messages generalizing r with
  | nil => exact h
  | cons m ms ih => exact ih (h.put m)

theorem advance (h : Bereft r) (ms : Nat) : Bereft (r.advance ms) := ⟨h.stage, h.receiver⟩

theorem settle (h : Bereft r) : r.settle = (r, {}) := by
  rw [Rehearsal.settle, h.stage]

theorem untilReadyLoop (h : Bereft r) (ms n : Nat) {o : ControllerOutput} (ho : o.events = []) :
    Bereft (Rehearsal.untilReadyLoop ms n r o).2.1 ∧
      (Rehearsal.untilReadyLoop ms n r o).2.2.events = [] := by
  induction n generalizing r o with
  | zero => exact ⟨h, ho⟩
  | succ n ih =>
    have hevents : (o ++ ({} : ControllerOutput)).events = [] := by
      have happend : (o ++ ({} : ControllerOutput)).events = o.events ++ [] := rfl
      rw [happend, ho]
      rfl
    rw [Rehearsal.untilReadyLoop, (h.advance ms).settle]
    exact ih (h.advance ms) hevents

theorem act (h : Bereft r) (a : Act) : Bereft (r.act a).1 ∧ (r.act a).2 = [] := by
  cases a with
  | settle =>
    rw [Rehearsal.act, h.settle]
    exact ⟨h, rfl⟩
  | spawn =>
    rw [Rehearsal.act, h.spawn]
    exact ⟨h, rfl⟩
  | stop =>
    rw [Rehearsal.act, Rehearsal.stop, h.stage]
    exact ⟨h, rfl⟩
  | shutdown drain =>
    rw [Rehearsal.act, Rehearsal.shutdown, h.stage]
    exact ⟨h, rfl⟩
  | put messages => exact ⟨h.putMany messages, rfl⟩
  | untilReady ms => exact h.untilReadyLoop ms maxAdvances rfl
  | closeQueue | advance | hold | release | changeFiles => exact ⟨⟨h.stage, h.receiver⟩, rfl⟩

theorem run (h : Bereft r) (acts : List Act) : Bereft (r.run acts).1 ∧ (r.run acts).2 = [] := by
  induction acts generalizing r with
  | nil => exact ⟨h, rfl⟩
  | cons a acts ih =>
    obtain ⟨hact, hquiet⟩ := h.act a
    obtain ⟨hrun, hnone⟩ := ih hact
    refine ⟨hrun, ?_⟩
    rw [Rehearsal.run]
    simp only [hquiet, hnone, List.append_nil]

end Bereft

theorem construct_error {kind : ControllerKind} {around : Surroundings} {config : Config}
    {e : ControllerError} (h : Controller.ofSettings kind around.files config = .error e) :
    (construct kind around config).1 = .error e ∧ Bereft (construct kind around config).2 := by
  rw [construct, h]
  exact ⟨rfl, rfl, rfl⟩

end Rehearsal

namespace RealController

/-- Making a controller for a root and scanning that root come to the same. -/
structure RootAgreement (fs : FileSystem) (root : Path) : Prop where
  made (masks : List String) (interval : Nat) :
    (∃ c, ofSettings fs root masks interval = .ok c) ↔ ∃ i, FileIndex.scan fs root masks = .ok i
  usable (masks : List String) (interval : Nat) :
    (∃ c, ofSettings fs root masks interval = .ok c) ↔
      ∃ entries, fs.Resolves root (.directory entries)
  notDirectory (masks : List String) (interval : Nat) (p : Path) :
    ofSettings fs root masks interval = .error (.rootNotDirectory p) ↔
      FileIndex.scan fs root masks = .error (.rootNotDirectory p)
  notFound (masks : List String) (interval : Nat) (p : Path) :
    FileIndex.scan fs root masks = .error (.rootNotFound p) ↔
      ofSettings fs root masks interval = .error (.rootNotFound p) ∨
        ∃ e, ofSettings fs root masks interval = .error (.io p e)
  missing (masks : List String) (interval : Nat) (p : Path) :
    ofSettings fs root masks interval = .error (.rootNotFound p) ↔
      p = root ∧ fs.Unresolved root (.system .notFound)
  obstructed (masks : List String) (interval : Nat) (p : Path) (e : IoError) :
    ofSettings fs root masks interval = .error (.io p e) ↔
      p = root ∧ fs.Unresolved root e ∧ e ≠ .system .notFound
  /-- While the files stay as they are a run fails only if the task of a scan breaks off. -/
  lasting {masks : List String} {interval : Nat} {c : RealController} :
    ofSettings fs root masks interval = .ok c → ∀ around ms,
      (∀ r, .endScan r ∈ ms →
        r = FileIndex.scan fs root masks ∨ ∃ text, r = .error (.scan text)) →
      ∀ e, ((Scene.opening (.real c) around).after ms).task.controller.phase =
        .ended (.error e) → ∃ text, e = .scan text ∧ .endScan (.error e) ∈ ms
  failed {around : Surroundings} {config : Config} {e : ControllerError} :
    around.files = fs → config.search.root = root →
      ofSettings fs root config.search.pathMasks config.search.rescanInterval = .error e →
        (Rehearsal.construct .real around config).1 = .error e ∧
          ∀ acts, ((Rehearsal.construct .real around config).2.run acts).2 = [] ∧
            ((Rehearsal.construct .real around config).2.run acts).1.Bereft
  /-- What is left takes no message, from whomever it comes. -/
  bereft {r : Rehearsal} : r.Bereft → r.kind = .error .noController ∧
    r.surroundings.queue.isClosed ∧
      ∀ m, r.surroundings.queue.put m = (.closed m, r.surroundings.queue)

theorem not_fails {c : RealController} (h : ofSettings fs root masks interval = .ok c)
    (around : Surroundings) {ms : List Move} {e : ControllerError}
    (scans : ∀ r, .endScan r ∈ ms →
      r = FileIndex.scan fs root masks ∨ ∃ text, r = .error (.scan text))
    (he : ((Scene.opening (.real c) around).after ms).task.controller.phase =
      .ended (.error e)) : ∃ text, e = .scan text ∧ .endScan (.error e) ∈ ms := by
  obtain ⟨i, hfound⟩ := (root_verdicts fs root masks interval).made_iff.1 ⟨c, h⟩
  obtain ⟨period, rfl⟩ := (root_verdicts fs root masks interval).fresh h
  have hmem : .endScan (.error e) ∈ ms := Scene.failed_scan he
  obtain hscan | ⟨text, htext⟩ := scans _ hmem
  · cases hscan.trans hfound
  · exact ⟨text, Except.error.inj htext, hmem⟩

theorem not_made {around : Surroundings} {config : Config} {e : ControllerError}
    (h : ofSettings around.files config.search.root config.search.pathMasks
      config.search.rescanInterval = .error e) :
    (Rehearsal.construct .real around config).1 = .error e ∧
      (Rehearsal.construct .real around config).2.Bereft := by
  refine Rehearsal.construct_error ?_
  rw [Controller.ofSettings, h]
  rfl

theorem root_agreement (fs : FileSystem) (root : Path) : RootAgreement fs root where
  made masks interval := (root_verdicts fs root masks interval).made_iff
  usable masks interval := (root_verdicts fs root masks interval).usable_iff
  notDirectory masks interval _ := (root_verdicts fs root masks interval).notDirectory_iff
  notFound masks interval _ := (root_verdicts fs root masks interval).notFound_iff
  missing masks interval _ := (root_verdicts fs root masks interval).missing_iff
  obstructed masks interval _ _ := (root_verdicts fs root masks interval).obstructed_iff
  lasting h around _ scans _ he := not_fails h around scans he
  failed := by
    rintro around config e rfl rfl h
    obtain ⟨hmade, hbereft⟩ := not_made h
    exact ⟨hmade, fun acts => ⟨(hbereft.run acts).2, (hbereft.run acts).1⟩⟩
  bereft h := ⟨h.kind, h.closed, h.queue_put⟩

end RealController

end SearchRelay
