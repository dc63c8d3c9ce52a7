import SearchRelay.Http.Upgrade
import SearchRelay.Relay

namespace SearchRelay.Http

inductive Route
  | page
  | channel
  deriving DecidableEq, Repr

inductive Answer
  | response (r : Response)
  | upgrade
  deriving DecidableEq, Repr

namespace Router

def route? (relay : Relay) (path : String) : Option Route :=
  if path = "/" then some .page else if path = relay.websocketPath then some .channel else none

def allowed : String × String := ("allow", "GET,HEAD")

def serve (relay : Relay) (request : Request) (upgradable : Bool) : Route → Answer × List LogEntry
  | .page =>
    match Page.render relay.websocketPath relay.controllerLabel with
    | .ok html => (.response (.ofHtml html), [])
    | .error e => (.response (ofPageError e), [pageErrorLog e])
  | .channel =>
    match request.upgradeFault? upgradable with
    | some f => (.response f.toResponse, [])
    | none => (.upgrade, [])

def share (r : Response) : Response :=
  (r.withHeader "access-control-allow-origin" "*").withHeader "vary"
    "origin, access-control-request-method, access-control-request-headers"

def welcome : Response :=
  { status := 200,
    headers := [("access-control-allow-methods", "*"), ("access-control-allow-headers", "*")] }

/-- A route ends its response: it tells the length, and drops what was not asked for. -/
def finish (request : Request) (r : Response) : Response :=
  let r := r.withLength
  if request.method = "HEAD" then r.withoutBody else r

def answer (relay : Relay) (request : Request) (upgradable : Bool) : Answer × List LogEntry :=
  let respond (r : Response) : Answer × List LogEntry := (.response (share r), [])
  match route? relay request.target with
  | none => respond (if request.method = "OPTIONS" then welcome else { status := 404 })
  | some route =>
    if request.method = "OPTIONS" then
      respond (finish request (welcome.withHeader allowed.1 allowed.2))
    else if request.method = "GET" ∨ request.method = "HEAD" then
      match serve relay request upgradable route with
      | (.response r, logs) => (.response (share (finish request r)), logs)
      | (.upgrade, logs) => (.upgrade, logs)
    else respond (finish request { status := 405, headers := [allowed] })

end Router

end SearchRelay.Http
