import SearchRelay.Proofs.Lifetime.Idling
import SearchRelay.Proofs.Lifetime.Life

namespace SearchRelay

namespace Life

section

variable {l : Life} {o : Operation} {leg : Leg} {s : Service}

theorem after_incidents (h : l.chapter = .running o leg) {incidents : List Incident}
    (kept : ∀ i ∈ incidents, i.isAbort = false) :
    l.after (incidents.map .incident) =
      { l with
        chapter := .running (o.after incidents) leg
        logs := l.logs ++ o.along Operation.logs incidents } := by
  induction incidents generalizing l o with
  | nil =>
    rw [show o.along Operation.logs [] = [] from rfl, List.append_nil]
    show l = { l with chapter := .running o leg }
    rw [← h]
  | cons i incidents ih =>
    obtain ⟨hi, hkept⟩ := List.forall_mem_cons.1 kept
    have hstep : l.step (.incident i) =
        { l with chapter := .running (o.step i) leg, logs := l.logs ++ o.logs i } := by
      simp [step, h, hi]
    rw [List.map_cons, after, List.foldl_cons]
    refine (ih (o := o.step i) (by rw [hstep]) hkept).trans ?_
    rw [hstep]
    simp only [List.append_assoc]
    rfl

/-- A lifetime that is halted, and of which some more was told since. -/
structure Halted (l : Life) (o : Operation) (s : Service) (b : Bootstrap) (logs : List LogRecord)
    (l' : Life) : Prop where
  chapter : l'.chapter = .running o (.halted s)
  bootstrap : l'.bootstrap = b
  logs : l'.logs = l.logs ++ logs

structure Finished (l : Life) (s : Service) (r : Report × Bootstrap × List LogRecord)
    (l' : Life) : Prop where
  result : l'.chapter.result? = some (.ok (s.result.map fun _ => r.1))
  bootstrap : l'.bootstrap = r.2.1
  logs : l'.logs = l.logs ++ r.2.2 ++ [r.2.1.complete r.1]

variable {l' : Life} {b : Bootstrap} {logs : List LogRecord}

/-- Nothing holds up the end of a lifetime once nothing of a controller runs. -/
theorem Halted.conclude (h : Halted l o s b logs l') (idle : o.running? = none)
    (whole : o.crash = none) {r : Report × Bootstrap × List LogRecord}
    (hr : r = ((b.conclude o.services o.verdict?).1, (b.conclude o.services o.verdict?).2.1,
      logs ++ (b.conclude o.services o.verdict?).2.2)) :
    Finished l s r (l'.step .conclude) := by
  have hquiet : o.complaint = [] := by simp only [Operation.complaint, whole]
  subst hr
  simp only [step, h.chapter, h.bootstrap, h.logs, idle, hquiet, List.append_nil]
  refine ⟨rfl, rfl, ?_⟩
  rw [List.append_assoc l.logs]

theorem Halted.incidents (h : Halted l o s b logs l') {incidents : List Incident}
    (kept : ∀ i ∈ incidents, i.isAbort = false) :
    Halted l (o.after incidents) s b (logs ++ o.along Operation.logs incidents)
      (l'.after (incidents.map .incident)) := by
  rw [after_incidents h.chapter kept]
  exact ⟨rfl, h.bootstrap, by rw [h.logs, List.append_assoc]⟩

theorem Halted.giveUp (h : Halted l o s b logs l') {t : ControllerTask}
    (hr : o.running? = some t) :
    Halted l (o.step .abort) s b
      (logs ++ [⟨.core, t.late b.config.shutdown.drainTimeout⟩]) (l'.step .giveUp) := by
  simp only [step, h.chapter, hr]
  exact ⟨rfl, h.bootstrap, by rw [h.logs, h.bootstrap, List.append_assoc]⟩

section

variable {t : ControllerTask} {r : Report × Bootstrap × List LogRecord}

end

structure Serves (l : Life) (s : Service) (host : Host)
    (r : Services × Bootstrap × List LogRecord) (l' : Life) : Prop where
  chapter : ∃ o : Operation, l'.chapter = .running o (.served s) ∧ o.Intact ∧ o.services = r.1 ∧
    o.host = host
  bootstrap : l'.bootstrap = r.2.1
  logs : l'.logs = l.logs ++ r.2.2

theorem serves (h : l.chapter = .running o .started) (intact : o.Intact) :
    ∃ more, Serves l (.served (.ok ())) o.host
      (l.bootstrap.serve o.services (Services.idle o.host)) (l.after more) := by
  obtain ⟨incidents, comes⟩ := intact.idle
  have hbound : (l.step (.bind (.ok ()))).chapter = .running o .serving := by
    simp only [step, h]
  have hserved := after_incidents hbound comes.kept
  refine ⟨.bind (.ok ()) :: (incidents.map .incident ++ [.serve (.ok ())]), ?_⟩
  rw [after, List.foldl_cons, ← after, after_concat, hserved, comes.logs]
  have hclosed : ((o.after incidents).step .close).Intact :=
    ⟨comes.intact.whole, fun t ht => comes.intact.task t ht⟩
  refine ⟨⟨(o.after incidents).step .close, rfl, hclosed, ?_, comes.host⟩, ?_, ?_⟩
  · simp only [Operation.step, comes.services]
    rfl
  · simp only [step, h]
    rfl
  · simp only [step, h, enter, Bootstrap.serve, Bootstrap.advance_eq, List.append_assoc]

theorem serves_unbound (h : l.chapter = .running o .started) (intact : o.Intact)
    (e : ServerError) : Serves l (.unbound e) o.host (o.services, l.bootstrap, [])
      (l.step (.bind (.error e))) := by
  simp only [step, h]
  exact ⟨⟨o, rfl, intact, rfl, rfl⟩, rfl, (List.append_nil _).symm⟩

theorem attends (h : l.chapter = .running o .started) (intact : o.Intact) (n : Network) :
    ∃ s more, s.result = (l.bootstrap.attend o.services n (Services.idle o.host)).1 ∧
      Serves l s o.host (l.bootstrap.attend o.services n (Services.idle o.host)).2
        (l.after more) := by
  -- Their equations are slow to find, as those would be tried on the address that is spelled.
  delta Bootstrap.attend Bootstrap.bind
  cases n.bind l.bootstrap.config.server.host l.bootstrap.config.server.port with
  | error e =>
    exact ⟨.unbound e.toServerError, [.bind (.error e.toServerError)], rfl,
      serves_unbound h intact e.toServerError⟩
  | ok bound =>
    obtain ⟨more, served⟩ := serves h intact
    exact ⟨.served (.ok ()), more, rfl, served⟩

end

/-- A lifetime that came to what a run gives. -/
structure Amounts (l : Life)
    (r : Except Bootstrap.StartFault (Except Failure Report) × Bootstrap × List LogRecord) :
    Prop where
  result : l.chapter.result? = some r.1
  bootstrap : l.bootstrap = r.2.1
  logs : l.logs = r.2.2

end Life

end SearchRelay
