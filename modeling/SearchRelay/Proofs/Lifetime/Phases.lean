import SearchRelay.Proofs.Lifetime.Operation
import SearchRelay.Proofs.Lifetime.Start

namespace SearchRelay

namespace LogRecord

def isPhase (r : LogRecord) : Bool :=
  r.source == .bootstrap && r.entry.message == "Bootstrap phase"

theorem filter_isPhase_map (source : LogSource) (h : source ≠ .bootstrap)
    (entries : List LogEntry) :
    (entries.map fun e => (⟨source, e⟩ : LogRecord)).filter isPhase = [] := by
  rw [List.filter_eq_nil_iff]
  intro r hr
  obtain ⟨e, -, rfl⟩ := List.mem_map.1 hr
  simp [isPhase, h]

end LogRecord

namespace Phase

def trail : List Phase → List LogRecord
  | p :: q :: r => Bootstrap.entered p q :: trail (q :: r)
  | _ => []

theorem trail_concat {visited : List Phase} {p : Phase} (h : visited.getLast? = some p)
    (q : Phase) : trail (visited ++ [q]) = trail visited ++ [Bootstrap.entered p q] := by
  induction visited with
  | nil => cases h
  | cons a r ih =>
    cases r with
    | nil =>
      obtain rfl := Option.some.inj h
      rfl
    | cons c r =>
      have hlast : (c :: r).getLast? = some p := by rw [← h, List.getLast?_cons_cons]
      exact congrArg (Bootstrap.entered a c :: ·) (ih hlast)

end Phase

theorem Bootstrap.farewell_quiet (s : Services) (outcome : Option ControllerTask.Outcome) :
    [farewell s outcome].filter LogRecord.isPhase = [] := by
  cases outcome <;> rfl

theorem Bootstrap.complete_quiet (b : Bootstrap) (r : Report) :
    [b.complete r].filter LogRecord.isPhase = [] := rfl

theorem Operation.logs_quiet (o : Operation) (i : Incident) :
    (o.logs i).filter LogRecord.isPhase = [] := by
  have core := LogRecord.filter_isPhase_map .core (by decide)
  have web := LogRecord.filter_isPhase_map .web (by decide)
  cases i with
  | move m =>
    cases ht : o.services.controller with
    | none => simp only [logs, ht, List.filter_nil]
    | some t =>
      simp only [logs, ht]
      exact core _
  | discard =>
    cases ht : o.services.controller with
    | some t => simp only [logs, ht, List.filter_nil]
    | none =>
      simp only [logs, ht, Services.discardNext]
      split
      · rfl
      · rfl
      · rfl
  | connect client => exact web _
  | disconnect client => exact web _
  | request r upgradable => exact web _
  | use action =>
    simp only [logs]
    split
    · exact core _
    · rfl
  | _ => rfl

end SearchRelay
