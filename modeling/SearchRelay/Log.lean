import SearchRelay.Text.Quoted

namespace SearchRelay

inductive LogLevel
  | error
  | warn
  | info
  | debug
  | trace
  deriving DecidableEq, Repr

namespace LogLevel

def name : LogLevel → String
  | error => "ERROR"
  | warn => "WARN"
  | info => "INFO"
  | debug => "DEBUG"
  | trace => "TRACE"

end LogLevel

inductive LogValue
  | plain (text : String)
  | quoted (text : String)
  deriving DecidableEq, Repr

namespace LogValue

def text : LogValue → String
  | plain s => s
  | quoted s => Text.Quoted.quote s

end LogValue

structure LogEntry where
  level : LogLevel
  message : String
  fields : List (String × LogValue) := []
  deriving DecidableEq, Repr

namespace LogEntry

def body (e : LogEntry) : String :=
  e.fields.foldl (fun s (k, v) => s ++ " " ++ k ++ "=" ++ v.text) e.message

def line (e : LogEntry) : String := e.level.name ++ " " ++ e.body

/-- Warnings and errors are shown to whoever runs the relay. -/
def isLoud (e : LogEntry) : Bool := e.level = .error || e.level = .warn

end LogEntry

end SearchRelay
