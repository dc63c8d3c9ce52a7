import SearchRelay.Files.FileSystem
import SearchRelay.Message.Encoding
import SearchRelay.Text.Quoted

namespace SearchRelay

inductive ControllerError
  | rootNotFound (path : Path)
  | rootNotDirectory (path : Path)
  | io (path : Path) (source : IoError)
  | scan (text : String)
  | alreadyRunning
  deriving DecidableEq, Repr

namespace ControllerError

def message : ControllerError → String
  | rootNotFound p => s!"search root not found: {p}"
  | rootNotDirectory p => s!"search root is not a directory: {p}"
  | io p e => s!"cannot access search root {p}: {e.message}"
  | scan text => s!"scan failed: {text}"
  | alreadyRunning => "controller is already running"

def details : ControllerError → String
  | rootNotFound p => s!"RootNotFound \x7b path: {Text.Quoted.quote p} \x7d"
  | rootNotDirectory p => s!"RootNotDirectory \x7b path: {Text.Quoted.quote p} \x7d"
  | io p e => s!"Io \x7b path: {Text.Quoted.quote p}, source: {e.details} \x7d"
  | scan text => s!"Scan({Text.Quoted.quote text})"
  | alreadyRunning => "AlreadyRunning"

end ControllerError

inductive ControllerKind
  | real
  | mock
  deriving DecidableEq, Repr

namespace ControllerKind

def name : ControllerKind → String
  | real => "real"
  | mock => "mock"

end ControllerKind

inductive ControllerMode
  | real
  | mock
  | disabled
  deriving DecidableEq, Repr

namespace ControllerMode

def mockWord : String := "mockcedar"
def disableWord : String := "noredcedar"

/-- The mode that words select; the mock controller wins, and other words do not count. -/
def ofWords (words : List String) : ControllerMode :=
  if words.contains mockWord then .mock
  else if words.contains disableWord then .disabled
  else .real

def kind? : ControllerMode → Option ControllerKind
  | real => some .real
  | mock => some .mock
  | disabled => none

def name : ControllerMode → String
  | real => "real"
  | mock => "mock"
  | disabled => "disabled"

end ControllerMode

inductive ControllerEvent
  | status (payload : StatusPayload)
  | indexUpdated (update : IndexUpdate)
  | progress (progress : Progress)
  deriving DecidableEq, Repr

namespace ControllerEvent

def toEmit : ControllerEvent → Emit
  | status s => .status s
  | indexUpdated u => .indexUpdated u
  | progress p => .progress p

def isReady : ControllerEvent → Bool
  | status s => s.state = .ready
  | _ => false

def isProgress : ControllerEvent → Bool
  | progress _ => true
  | _ => false

end ControllerEvent

end SearchRelay
