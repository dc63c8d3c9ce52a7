import SearchRelay.Bootstrap
import SearchRelay.Http.Basic

/-!
A lifetime that is taken step by step, in any order: a step for which something is missing is not
ready, and a second start replaces what the first one made.
-/

namespace SearchRelay

inductive Visit
  | request (r : Http.Request)
  | connect
  | channel (client : Nat)
  | emit (events : List Emit)
  | clients
  | discarded
  deriving Repr

inductive Visited
  | refused
  | noClient
  | reached (receivers : List Nat)
  | count (n : Nat)
  deriving DecidableEq, Repr

namespace Visit

def sendAll (s : Services) : List Emit → List Nat × Services
  | [] => ([], s)
  | e :: r =>
    let (n, events) := s.relay.events.send e
    let (ns, s) := sendAll { s with relay := { s.relay with events } } r
    (n :: ns, s)

/-- Makes a visit. On a host that nobody reaches there are no channels, and a visitor who cannot
do without one learns why. -/
def make (n : Network) (address : SocketAddress) (s : Services) :
    Visit → Except Errno (Visited × Services)
  | request _ =>
    match n.reach address with
    | .ok impossible => nomatch impossible
    | .error _ => .ok (.refused, s)
  | connect =>
    match n.reach address with
    | .ok impossible => nomatch impossible
    | .error e => .error e
  | channel _ => .ok (.noClient, s)
  | emit events =>
    let (receivers, s) := sendAll s events
    .ok (.reached receivers, s)
  | clients => .ok (.count s.relay.clients, s)
  | discarded => .ok (.count s.discarded, s)

def makeAll (n : Network) (address : SocketAddress) (s : Services) :
    List Visit → Except Errno (List Visited × Services)
  | [] => .ok ([], s)
  | v :: r => do
    let (result, s) ← v.make n address s
    let (results, s) ← makeAll n address s r
    pure (result :: results, s)

end Visit

structure Lifetime where
  bootstrap : Bootstrap
  host : Host
  network : Network := {}
  services : Option Services := none
  listener : Option SocketAddress := none

namespace Lifetime

structure Started where
  services : Services
  events : List ControllerEvent

/-- The events up to the first that says the controller is ready, or that it has long to go. -/
def openingEvents (total : Nat) : List ControllerEvent → List ControllerEvent
  | [] => []
  | e :: r => if e.isReady || (e.isProgress && 1 < total) then [e] else e :: openingEvents total r

def start (l : Lifetime) :
    Except Bootstrap.StartFault Started × Lifetime × List LogRecord :=
  let (made, bootstrap, logs) := l.bootstrap.start l.host
  let l := { l with bootstrap }
  match made with
  | .error e => (.error e, l, logs)
  | .ok services =>
    let (services, events, more) := services.settle l.host
    let events := openingEvents bootstrap.config.mock.totalFiles events
    (.ok ⟨services, events⟩, { l with services := some services }, logs ++ more)

def closeListener (l : Lifetime) : Lifetime :=
  let listening := l.network.listening.filter fun a => some a != l.listener
  { l with listener := none, network := { l.network with listening } }

def bind (l : Lifetime) : Except Failure SocketAddress × Lifetime :=
  match l.bootstrap.bind l.network with
  | .error f => (.error f, l)
  | .ok (address, network) =>
    (.ok address, { closeListener { l with network } with listener := some address })

inductive Outcome (α : Type)
  | done (a : α)
  | notReady
  | unreachable (e : Errno)

structure Served where
  visits : List Visited
  clients : Nat
  discarded : Nat
  deriving DecidableEq, Repr

def serve (l : Lifetime) (visits : List Visit) : Outcome Served × Lifetime × List LogRecord :=
  match l.services, l.listener with
  | some services, some address =>
    match Visit.makeAll l.network address services visits with
    | .error e => (.unreachable e, l, [])
    | .ok (results, services) =>
      let (services, bootstrap, logs) := l.bootstrap.serve services (Services.idle l.host)
      (.done ⟨results, services.relay.clients, services.discarded⟩,
        closeListener { l with bootstrap, services := some services }, logs)
  | _, _ => (.notReady, l, [])

def finish (l : Lifetime) : Outcome Report × Lifetime × List LogRecord :=
  match l.services with
  | none => (.notReady, l, [])
  | some services =>
    let (report, bootstrap, logs) := l.bootstrap.finish services l.host
    (.done report, { l with bootstrap, services := none }, logs)

/-- All of it at once, with nobody who visits. -/
def run (l : Lifetime) :
    Except Bootstrap.StartFault (Except Failure Report) × Lifetime × List LogRecord :=
  let (result, bootstrap, logs) := l.bootstrap.run l.host l.network (Services.idle l.host)
  (result, { l with bootstrap }, logs)

end Lifetime

end SearchRelay
