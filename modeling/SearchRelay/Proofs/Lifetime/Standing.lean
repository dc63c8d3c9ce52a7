import Mathlib.Data.List.Induction
import SearchRelay.Proofs.Broadcast.Delivery
import SearchRelay.Proofs.Lifetime.Life
import SearchRelay.Proofs.Lifetime.Phases

namespace SearchRelay

namespace Service

def errands : Service → List Errand
  | unbound e => [.bind (.error e)]
  | served outcome => [.bind (.ok ()), .serve outcome]

def phases : Service → List Phase
  | unbound _ => []
  | served _ => [.serverRunning, .shutdown]

end Service

namespace Phase

def opening (kind? : Option ControllerKind) : Phase := if kind?.isSome then starting else skipped

def closing (kind? : Option ControllerKind) : Phase := if kind?.isSome then controllerStop else noOp

end Phase

namespace Leg

def errands (kind? : Option ControllerKind) : Leg → List Errand
  | started => []
  | serving => [.bind (.ok ())]
  | served s => s.errands
  | halted s => s.errands ++ Errand.closing kind?

def phases (kind? : Option ControllerKind) : Leg → List Phase
  | started => []
  | serving => [.serverRunning]
  | served s => s.phases
  | halted s => s.phases ++ [.closing kind?]

def isHalted : Leg → Bool
  | halted _ => true
  | _ => false

end Leg

theorem Operation.complaint_quiet (o : Operation) :
    o.complaint.filter LogRecord.isPhase = [] := by
  unfold complaint
  split <;> rfl

namespace Life

def plan (kind? : Option ControllerKind) (s : Service) : List Errand :=
  Errand.opening kind? ++ (s.errands ++ Errand.closing kind?)

def path (kind? : Option ControllerKind) (s : Service) : List Phase :=
  [.init, .controllerSelection, .opening kind?] ++ (s.phases ++ [.closing kind?, .terminated])

/-- How much of it is done in a chapter. -/
inductive Reached (b : Bootstrap) (host : Host) : Chapter → List Errand → List Phase → Prop
  | fresh : Reached b host .fresh [] [.init]
  | failed {kind : ControllerKind} (mode : b.mode.kind? = some kind) {e : ControllerError}
      (made : Controller.ofSettings kind host.files b.config = .error e) :
      Reached b host (.failed (.controller e)) [.construct kind] [.init, .controllerSelection]
  | running (made : ∀ kind, b.mode.kind? = some kind →
        ∃ c, Controller.ofSettings kind host.files b.config = .ok c)
      {o : Operation} (sound : o.Sound) (kind : o.services.kind? = b.mode.kind?) (leg : Leg)
      (asked : leg.isHalted → o.Asked) :
      Reached b host (.running o leg)
        (Errand.opening b.mode.kind? ++ leg.errands b.mode.kind?)
        ([.init, .controllerSelection, .opening b.mode.kind?] ++ leg.phases b.mode.kind?)
  | returned (made : ∀ kind, b.mode.kind? = some kind →
        ∃ c, Controller.ofSettings kind host.files b.config = .ok c)
      {o : Operation} (sound : o.Sound) (kind : o.services.kind? = b.mode.kind?)
      (asked : o.Asked) (idle : o.running? = none) (s : Service) :
      Reached b host (.returned o (s.result.map fun _ => ⟨b.mode.kind?, o.verdict?⟩))
        (plan b.mode.kind? s) (path b.mode.kind? s)

/-- What was done by others so far, and the phases of which the log tells. -/
structure Told (b : Bootstrap) (l : Life) (errands : List Errand) (visited : List Phase) :
    Prop where
  settings : l.bootstrap = { b with phase := l.bootstrap.phase }
  errands : l.errands = errands
  phases : l.logs.filter LogRecord.isPhase = Phase.trail visited
  last : visited.getLast? = some l.bootstrap.phase

structure Standing (b : Bootstrap) (host : Host) (l : Life) : Prop where
  place : l.host = host
  reached : ∃ errands visited, Reached b host l.chapter errands visited ∧ Told b l errands visited

section

variable {b : Bootstrap} {l : Life} {errands : List Errand} {visited : List Phase}

theorem Told.turn (h : Told b l errands visited) (chapter : Chapter) :
    Told b { l with chapter } errands visited :=
  ⟨h.settings, h.errands, h.phases, h.last⟩

theorem Told.done (h : Told b l errands visited) (more : List Errand) :
    Told b { l with errands := l.errands ++ more } (errands ++ more) visited :=
  ⟨h.settings, congrArg (· ++ more) h.errands, h.phases, h.last⟩

theorem Told.log (h : Told b l errands visited) {logs : List LogRecord}
    (quiet : logs.filter LogRecord.isPhase = []) :
    Told b { l with logs := l.logs ++ logs } errands visited where
  settings := h.settings
  errands := h.errands
  phases := by rw [List.filter_append, quiet, List.append_nil, h.phases]
  last := h.last

theorem Told.enter (h : Told b l errands visited) (next : Phase) :
    Told b (l.enter next) errands (visited ++ [next]) where
  settings := congrArg (fun b : Bootstrap => { b with phase := next }) h.settings
  errands := h.errands
  phases := by
    rw [Phase.trail_concat h.last, ← h.phases]
    exact List.filter_append _ _
  last := List.getLast?_concat

variable {host : Host}

theorem standing_of_start {made : Except Bootstrap.StartFault Services} {b' : Bootstrap}
    {logs : List LogRecord} (turn : Bootstrap.StartTurn b host made b' logs)
    (init : b.phase = .init)
    (room : b.config.server.broadcastCapacity ≤ Broadcast.maxCapacity) :
    Standing b host
      { host, bootstrap := b', chapter := opened host made,
        errands := startErrands b.mode made, logs } := by
  have web := LogRecord.filter_isPhase_map .web (by decide)
  cases turn with
  | unfit e full =>
    -- A capacity that can be asked for is not refused.
    obtain ⟨fresh, hfresh, -⟩ := Broadcast.ofCapacity_ok (α := Emit) room
    rw [hfresh] at full
    cases full
  | failed mode made =>
    refine ⟨rfl, _, _, .failed mode made, ?_⟩
    exact ⟨rfl, by simp [startErrands, mode], by rw [init]; rfl, rfl⟩
  | @starting kind mode controller made relay queue warnings =>
    have hkind : (some controller.kind : Option ControllerKind) = b.mode.kind? := by
      rw [mode, (Controller.ofSettings_ok made).1]
    have hmade : ∀ kind, b.mode.kind? = some kind →
        ∃ c, Controller.ofSettings kind host.files b.config = .ok c := by
      intro kind' hkind'
      obtain rfl := Option.some.inj (mode.symm.trans hkind')
      exact ⟨controller, made⟩
    have sound : Operation.Sound ⟨{ relay, controller := some { controller } }, host, 0, none⟩ := by
      refine ⟨fun hc => (nomatch hc), fun t ht ha => ?_⟩
      obtain rfl := Option.some.inj ht
      cases ha
    refine ⟨rfl, _, _, .running hmade sound hkind .started (fun h => (nomatch h)), rfl, ?_, ?_, ?_⟩
    · rw [← hkind]
      rfl
    · rw [List.filter_append, web, List.append_nil, init, mode]
      rfl
    · rw [mode]
      rfl
  | skipped mode relay queue warnings =>
    have hmade : ∀ kind, b.mode.kind? = some kind →
        ∃ c, Controller.ofSettings kind host.files b.config = .ok c := by
      intro kind hkind
      rw [mode] at hkind
      cases hkind
    have sound : Operation.Sound ⟨{ relay }, host, 0, none⟩ :=
      ⟨fun hc => (nomatch hc), fun t ht => nomatch ht⟩
    refine ⟨rfl, _, _, .running hmade sound mode.symm .started (fun h => (nomatch h)), rfl,
      ?_, ?_, ?_⟩
    · rw [mode]
      rfl
    · rw [List.filter_append, web, List.append_nil, init, mode]
      rfl
    · rw [mode]
      rfl

theorem Standing.start (h : Standing b host l) (init : b.phase = .init)
    (room : b.config.server.broadcastCapacity ≤ Broadcast.maxCapacity) :
    Standing b host (l.step .start) := by
  obtain ⟨errands, visited, reached, told⟩ := h.reached
  simp only [step]
  split
  · rename_i hfresh
    rw [hfresh] at reached
    cases reached with
    | fresh =>
      have hlast : l.bootstrap.phase = .init := (Option.some.inj told.last).symm
      have hb : l.bootstrap = b := by rw [told.settings, hlast, ← init]
      obtain ⟨-, errands, visited, reached, started⟩ :=
        standing_of_start (b.start_turn host) init room
      rw [hb, h.place, told.errands]
      refine ⟨rfl, errands, visited, reached, started.settings, started.errands, ?_, started.last⟩
      rw [List.filter_append, told.phases]
      exact started.phases
  · exact h

theorem Standing.incident (h : Standing b host l) (i : Incident) :
    Standing b host (l.step (.incident i)) := by
  obtain ⟨errands, visited, reached, told⟩ := h.reached
  simp only [step]
  split
  · rename_i o leg hrunning
    split
    · exact h
    · rename_i hi
      have habort : i ≠ .abort := by
        rintro rfl
        exact hi rfl
      rw [hrunning] at reached
      cases reached with
      | running made sound kind _ asked =>
        have turn := o.handling habort
        exact ⟨h.place, _, _, .running made (sound.handling turn) (turn.kind.trans kind) leg
          fun hl => (asked hl).handling turn, (told.log (o.logs_quiet i)).turn _⟩
  · exact h

theorem Standing.bind (h : Standing b host l) (outcome : Except ServerError Unit) :
    Standing b host (l.step (.bind outcome)) := by
  obtain ⟨errands, visited, reached, told⟩ := h.reached
  simp only [step]
  split
  · rename_i o hstarted
    rw [hstarted] at reached
    cases reached with
    | running made sound kind =>
      cases outcome with
      | error e =>
        have htold := (told.done [.bind (.error e)]).turn (.running o (.served (.unbound e)))
        rw [List.append_assoc] at htold
        exact ⟨h.place, _, _, .running made sound kind (.served (.unbound e))
          (fun hl => nomatch hl), htold⟩
      | ok u =>
        have htold :=
          ((told.done [.bind (.ok ())]).enter .serverRunning).turn (.running o .serving)
        rw [List.append_assoc, List.append_assoc] at htold
        exact ⟨h.place, _, _, .running made sound kind .serving (fun hl => nomatch hl), htold⟩
  · exact h

theorem Standing.serve (h : Standing b host l) (outcome : Except ServerError Unit) :
    Standing b host (l.step (.serve outcome)) := by
  obtain ⟨errands, visited, reached, told⟩ := h.reached
  simp only [step]
  split
  · rename_i o hserving
    rw [hserving] at reached
    cases reached with
    | running made sound kind =>
      have htold (chapter : Chapter) :=
        ((told.enter .shutdown).done [.serve outcome]).turn chapter
      simp only [List.append_assoc] at htold
      have turn := o.handling (i := .close) (fun h => nomatch h)
      cases outcome with
      | error e =>
        exact ⟨h.place, _, _, .running made sound kind (.served (.served (.error e)))
          (fun hl => nomatch hl), htold _⟩
      | ok u =>
        exact ⟨h.place, _, _, .running made (sound.handling turn) (turn.kind.trans kind)
          (.served (.served (.ok ()))) (fun hl => nomatch hl), htold _⟩
  · exact h

theorem halt_turn (b : Bootstrap) (o : Operation) : ∃ services, ∃ entries : List LogEntry,
    b.halt o.services = (services, { b with phase := .closing o.services.kind? },
      [Bootstrap.entered b.phase (.closing o.services.kind?)] ++ entries.map fun e => ⟨.core, e⟩) ∧
    Operation.Handling o { o with services } ∧ Operation.Asked { o with services } := by
  cases ht : o.services.controller with
  | none =>
    refine ⟨o.services, [], ?_, .none ht ht rfl, fun t ht' => ?_⟩
    · simp only [Bootstrap.halt, Services.kind?, ht]
      rfl
    · cases ht.symm.trans ht'
  | some t =>
    refine ⟨{ o.services with controller := some t.stop.2.1 }, t.stop.2.2, ?_,
      .went ht rfl rfl rfl (fun _ => rfl) rfl (fun _ => rfl), fun t' ht' => ?_⟩
    · simp only [Bootstrap.halt, Services.kind?, ht]
      rfl
    · obtain rfl := Option.some.inj ht'
      rfl

theorem Standing.halt (h : Standing b host l) : Standing b host (l.step .halt) := by
  obtain ⟨errands, visited, reached, told⟩ := h.reached
  simp only [step]
  split
  · rename_i o s hserved
    rw [hserved] at reached
    cases reached with
    | running made sound kind =>
      obtain ⟨services, entries, hhalt, turn, asked⟩ := halt_turn l.bootstrap o
      have hkind : services.kind? = b.mode.kind? := turn.kind.trans kind
      have quiet := LogRecord.filter_isPhase_map .core (by decide) entries
      have htold := (((told.enter (.closing b.mode.kind?)).log quiet).done
        (Errand.closing b.mode.kind?)).turn (.running { o with services } (.halted s))
      simp only [enter, Bootstrap.advance_eq, List.append_assoc] at htold
      rw [hhalt, kind]
      simp only [hkind]
      exact ⟨h.place, _, _, .running made (sound.handling turn) hkind (.halted s) fun _ => asked,
        htold⟩
  · exact h

theorem Standing.giveUp (h : Standing b host l) : Standing b host (l.step .giveUp) := by
  obtain ⟨errands, visited, reached, told⟩ := h.reached
  simp only [step]
  split
  · rename_i o s hhalted
    split
    · rename_i t hrunning
      rw [hhalted] at reached
      cases reached with
      | running made sound kind _ asked =>
        have hkind : (o.step .abort).services.kind? = b.mode.kind? := by
          rw [← kind, Operation.step_abort hrunning, Services.kind?, Services.kind?,
            (Operation.running?_eq_some.1 hrunning).2.1]
          rfl
        exact ⟨h.place, _, _, .running made (Operation.sound_abort hrunning) hkind (.halted s)
          fun hl => (asked hl).abort hrunning, (told.log rfl).turn _⟩
    · exact h
  · exact h

theorem Standing.conclude (h : Standing b host l) : Standing b host (l.step .conclude) := by
  obtain ⟨errands, visited, reached, told⟩ := h.reached
  simp only [step]
  split
  · rename_i o s hhalted
    split
    · exact h
    · rename_i hover
      rw [hhalted] at reached
      cases reached with
      | running made sound kind _ asked =>
        have hended := ((told.log o.complaint_quiet).log
          (Bootstrap.farewell_quiet o.services o.verdict?)).enter .terminated
        have hreport := Bootstrap.complete_quiet { l.bootstrap with phase := .terminated }
          ⟨b.mode.kind?, o.verdict?⟩
        have htold := (hended.log hreport).turn
          (.returned o (s.result.map fun _ => ⟨b.mode.kind?, o.verdict?⟩))
        simp only [enter, Bootstrap.advance_eq, Leg.phases, List.append_assoc] at htold
        simp only [Bootstrap.conclude, kind, List.append_assoc]
        exact ⟨h.place, _, _, .returned made sound kind (asked rfl) hover s, htold⟩
  · exact h

theorem Standing.step (h : Standing b host l) (init : b.phase = .init)
    (room : b.config.server.broadcastCapacity ≤ Broadcast.maxCapacity) (x : Happening) :
    Standing b host (l.step x) := by
  cases x with
  | start => exact h.start init room
  | incident i => exact h.incident i
  | bind outcome => exact h.bind outcome
  | serve outcome => exact h.serve outcome
  | halt => exact h.halt
  | giveUp => exact h.giveUp
  | conclude => exact h.conclude

end

end Life

end SearchRelay
