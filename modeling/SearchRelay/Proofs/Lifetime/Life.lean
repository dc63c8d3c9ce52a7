import SearchRelay.Proofs.Lifetime.Ending
import SearchRelay.Proofs.Lifetime.Start

/-!
The lifetime of a relay step by step. Its own steps come in one order, whatever becomes of them, and
between any two of them anything may happen to what was started.
-/

namespace SearchRelay

/-- How the server did: it got no address, or it served for some time. -/
inductive Service
  | unbound (e : ServerError)
  | served (outcome : Except ServerError Unit)

namespace Service

def result : Service → Except Failure Unit
  | unbound e => .error (.server e)
  | served outcome => outcome.mapError .server

end Service

/-- What a lifetime has others do, and what came of it. -/
inductive Errand
  | construct (kind : ControllerKind)
  | spawn (kind : ControllerKind)
  | bind (outcome : Except ServerError Unit)
  | serve (outcome : Except ServerError Unit)
  | stop

namespace Errand

def opening : Option ControllerKind → List Errand
  | some kind => [construct kind, spawn kind]
  | none => []

def closing (kind? : Option ControllerKind) : List Errand := (kind?.map fun _ => stop).toList

end Errand

inductive Leg
  | started
  | serving
  | served (s : Service)
  | halted (s : Service)

inductive Chapter
  | fresh
  | failed (e : Bootstrap.StartFault)
  | running (o : Operation) (leg : Leg)
  | returned (o : Operation) (result : Except Failure Report)

namespace Chapter

def result? : Chapter → Option (Except Bootstrap.StartFault (Except Failure Report))
  | failed e => some (.error e)
  | returned _ result => some (.ok result)
  | _ => none

end Chapter

inductive Happening
  | start
  /-- Something happens to what was started, or somebody else asks the controller to stop. -/
  | incident (i : Incident)
  | bind (outcome : Except ServerError Unit)
  | serve (outcome : Except ServerError Unit)
  | halt
  | giveUp
  | conclude

namespace Happening

/-- Whether this is a step of the lifetime itself. -/
def isOwn : Happening → Bool
  | incident _ => false
  | _ => true

end Happening

structure Life where
  host : Host
  bootstrap : Bootstrap
  chapter : Chapter := .fresh
  errands : List Errand := []
  logs : List LogRecord := []

namespace Operation

def complaint (o : Operation) : List LogRecord :=
  match o.crash, o.services.controller with
  | some text, some t =>
    [⟨.core, .warn, "Controller task failed",
      [("kind", .plain t.controller.kind.name), ("error", .plain text)]⟩]
  | _, _ => []

end Operation

namespace Life

def enter (l : Life) (next : Phase) : Life :=
  let (bootstrap, logs) := l.bootstrap.advance next
  { l with bootstrap, logs := l.logs ++ logs }

def startErrands (mode : ControllerMode) : Except Bootstrap.StartFault Services → List Errand
  | .error (.capacity _) => []
  | .error (.controller _) => (mode.kind?.map .construct).toList
  | .ok services => Errand.opening services.kind?

def opened (host : Host) : Except Bootstrap.StartFault Services → Chapter
  | .error e => .failed e
  | .ok services => .running { services, host } .started

def step (l : Life) : Happening → Life
  | .start =>
    match l.chapter with
    | .fresh =>
      let (made, bootstrap, logs) := l.bootstrap.start l.host
      { l with
        bootstrap
        chapter := opened l.host made
        errands := l.errands ++ startErrands l.bootstrap.mode made
        logs := l.logs ++ logs }
    | _ => l
  | .incident i =>
    match l.chapter with
    | .running o leg =>
      if i.isAbort then l
      else { l with chapter := .running (o.step i) leg, logs := l.logs ++ o.logs i }
    | _ => l
  | .bind outcome =>
    match l.chapter with
    | .running o .started =>
      let l : Life := { l with errands := l.errands ++ [.bind outcome] }
      match outcome with
      | .error e => { l with chapter := .running o (.served (.unbound e)) }
      | .ok () => { l.enter .serverRunning with chapter := .running o .serving }
    | _ => l
  | .serve outcome =>
    match l.chapter with
    | .running o .serving =>
      let o :=
        match outcome with
        | .ok () => o.step .close
        | .error _ => o
      { l.enter .shutdown with
        chapter := .running o (.served (.served outcome))
        errands := l.errands ++ [.serve outcome] }
    | _ => l
  | .halt =>
    match l.chapter with
    | .running o (.served s) =>
      let (services, bootstrap, logs) := l.bootstrap.halt o.services
      { l with
        bootstrap
        chapter := .running { o with services } (.halted s)
        errands := l.errands ++ Errand.closing services.kind?
        logs := l.logs ++ logs }
    | _ => l
  | .giveUp =>
    match l.chapter with
    | .running o (.halted s) =>
      match o.running? with
      | some t =>
        let late := t.late l.bootstrap.config.shutdown.drainTimeout
        { l with
          chapter := .running (o.step .abort) (.halted s)
          logs := l.logs ++ [⟨.core, late⟩] }
      | none => l
    | _ => l
  | .conclude =>
    match l.chapter with
    | .running o (.halted s) =>
      match o.running? with
      | some _ => l
      | none =>
        let (report, bootstrap, logs) := l.bootstrap.conclude o.services o.verdict?
        { l with
          bootstrap
          chapter := .returned o (s.result.map fun _ => report)
          logs := l.logs ++ o.complaint ++ logs ++ [bootstrap.complete report] }
    | _ => l

def after (l : Life) (happenings : List Happening) : Life := happenings.foldl step l

theorem after_append (l : Life) (happenings more : List Happening) :
    l.after (happenings ++ more) = (l.after happenings).after more := List.foldl_append

theorem after_concat (l : Life) (happenings : List Happening) (x : Happening) :
    l.after (happenings ++ [x]) = (l.after happenings).step x := l.after_append happenings [x]

def opening (bootstrap : Bootstrap) (host : Host) : Life := { host, bootstrap }

end Life

end SearchRelay
