import SearchRelay.Bootstrap

namespace SearchRelay

/-- A controller that is made is of the kind that was asked for, and has not begun. -/
theorem Controller.ofSettings_ok {kind : ControllerKind} {fs : FileSystem} {config : Config}
    {c : Controller} (h : ofSettings kind fs config = .ok c) :
    c.kind = kind ∧ c.phase = .idle ∧ ∀ r, c = .real r → r.rescanning = false := by
  cases kind with
  | mock =>
    obtain rfl := Except.ok.inj h
    exact ⟨rfl, rfl, fun r hr => by cases hr⟩
  | real =>
    simp only [ofSettings, RealController.ofSettings] at h
    split at h
    · cases h
    · split at h
      · obtain rfl := Except.ok.inj h
        refine ⟨rfl, rfl, fun r hr => ?_⟩
        obtain rfl := Controller.real.inj hr
        rfl
      · cases h

namespace Bootstrap

def entered (current next : Phase) : LogRecord :=
  ⟨.bootstrap, .debug, "Bootstrap phase",
    [("from", .plain current.name), ("to", .plain next.name)]⟩

theorem advance_eq (b : Bootstrap) (next : Phase) :
    b.advance next = ({ b with phase := next }, [entered b.phase next]) := rfl

inductive StartTurn (b : Bootstrap) (host : Host) :
    Except StartFault Services → Bootstrap → List LogRecord → Prop
  | unfit (e : Broadcast.CapacityError)
      (room : (Broadcast.ofCapacity b.config.server.broadcastCapacity :
        Except _ (Broadcast Emit)) = .error e) :
      StartTurn b host (.error (.capacity e)) { b with phase := .controllerSelection }
        [entered b.phase .controllerSelection]
  | failed {kind : ControllerKind} (mode : b.mode.kind? = some kind) {e : ControllerError}
      (made : Controller.ofSettings kind host.files b.config = .error e) :
      StartTurn b host (.error (.controller e)) { b with phase := .controllerSelection }
        [entered b.phase .controllerSelection, constructing kind b.config.search.root]
  | starting {kind : ControllerKind} (mode : b.mode.kind? = some kind) {controller : Controller}
      (made : Controller.ofSettings kind host.files b.config = .ok controller)
      (relay : Relay) (queue : relay.queue = {}) (warnings : List LogEntry) :
      StartTurn b host (.ok { relay, controller := some { controller } })
        { b with phase := .starting }
        ([entered b.phase .controllerSelection, constructing kind b.config.search.root,
          entered .controllerSelection .starting] ++ warnings.map fun e => ⟨.web, e⟩)
  | skipped (mode : b.mode.kind? = none) (relay : Relay) (queue : relay.queue = {})
      (warnings : List LogEntry) :
      StartTurn b host (.ok { relay }) { b with phase := .skipped }
        ([entered b.phase .controllerSelection, noController,
          entered .controllerSelection .skipped] ++ warnings.map fun e => ⟨.web, e⟩)

theorem relay_eq (b : Bootstrap) (events : Broadcast Emit) (label : String) :
    ∃ warnings : List LogEntry, (b.relay events label).1.queue = {} ∧
      (b.relay events label).2 = warnings.map fun e => ⟨.web, e⟩ := by
  simp only [relay, Relay.withPath]
  cases Relay.route? b.config.server.websocketPath with
  | some route => exact ⟨[], rfl, rfl⟩
  | none => exact ⟨[Relay.invalidPath b.config.server.websocketPath], rfl, rfl⟩

theorem start_turn (b : Bootstrap) (host : Host) :
    StartTurn b host (b.start host).1 (b.start host).2.1 (b.start host).2.2 := by
  simp only [start, advance_eq]
  cases hroom : (Broadcast.ofCapacity b.config.server.broadcastCapacity :
      Except _ (Broadcast Emit)) with
  | error e => exact .unfit e hroom
  | ok events =>
    cases hmode : b.mode.kind? with
    | none =>
      obtain ⟨warnings, hqueue, hlogs⟩ :=
        relay_eq { b with phase := .skipped } events "none"
      have turn : StartTurn b host _ _ _ := .skipped hmode _ hqueue warnings
      rw [← hlogs] at turn
      exact turn
    | some kind =>
      dsimp only
      cases hmade : Controller.ofSettings kind host.files b.config with
      | error e => exact .failed hmode hmade
      | ok controller =>
        obtain ⟨warnings, hqueue, hlogs⟩ :=
          relay_eq { b with phase := .starting } events kind.name
        have turn := StartTurn.starting hmode hmade _ hqueue warnings
        rw [← hlogs] at turn
        exact turn

theorem StartTurn.fresh {b b' : Bootstrap} {host : Host} {services : Services}
    {logs : List LogRecord} (turn : StartTurn b host (.ok services) b' logs) :
    services.relay.queue = {} ∧ services.discarded = 0 ∧ services.kind? = b.mode.kind? := by
  cases turn with
  | starting mode made relay queue =>
    rw [mode, ← (Controller.ofSettings_ok made).1]
    exact ⟨queue, rfl, rfl⟩
  | skipped mode relay queue => exact ⟨queue, rfl, mode.symm⟩

end Bootstrap

end SearchRelay
