import SearchRelay.Bootstrap
import SearchRelay.CommandLine.Refusal

namespace SearchRelay

structure Transcript where
  exit : Nat
  stdout : String := ""
  stderr : String := ""
  logs : List LogRecord := []
  deriving DecidableEq, Repr

namespace Transcript

def variableNames : List String := ["CEDAR_SEARCH_ROOT", "CEDAR_PORT", "RUST_LOG"]

/-- The directives of the environment, if they are all right, else those of the configuration with
a complaint about each that is not. -/
def filter (config : Config) (lookup : String → Option String) :
    List LogFilter.Directive × List String :=
  match (lookup "RUST_LOG").map LogFilter.parse with
  | some (.ok ds) => (ds, [])
  | _ => LogFilter.parseLenient config.logging.level

def info (message : String) (fields : List (String × LogValue)) : LogRecord :=
  ⟨.program, .info, message, fields⟩

def loadedLog : ConfigSource → LogRecord
  | .file path => info "Configuration loaded" [("path", .plain path)]
  | .defaults => info "Config file not found, using defaults" []

def modeDetails : ControllerMode → String
  | .real => "Real"
  | .mock => "Mock"
  | .disabled => "Disabled"

def resolvedLog (mode : ControllerMode) (c : Config) : LogRecord :=
  info "Configuration resolved"
    [("mode", .plain (modeDetails mode)), ("host", .quoted c.server.host),
      ("port", .plain (toString c.server.port)), ("websocket_path", .quoted c.server.websocketPath),
      ("search_root", .plain c.search.root)]

def stoppedLog (r : Report) : LogRecord :=
  match r.kind, r.outcome with
  | some kind, some outcome =>
    info "cedar-engine stopped" [("kind", .plain kind.name), ("outcome", .plain outcome.details)]
  | _, _ => info "cedar-engine stopped (no controller)" []

def failed (f : Failure) (stderr : List String) (logs : List LogRecord) : Transcript :=
  { exit := 1, stderr := CommandLine.lines (stderr ++ ["Error: " ++ f.details]), logs }

def complaints (stderr : List String) : String :=
  if stderr.isEmpty then "" else CommandLine.lines stderr

def serve (mode : ControllerMode) (loaded : LoadedConfig) (host : Host) (n : Network)
    (lookup : String → Option String) : Transcript :=
  let config := loaded.config
  let (directives, stderr) := filter config lookup
  let shown (logs : List LogRecord) : List LogRecord := logs.filter (LogFilter.shows directives)
  let first := [info "cedar-engine starting" [], loadedLog loaded.source, resolvedLog mode config]
  match Bootstrap.run ⟨config, mode, .init⟩ host n (Services.idle host) with
  | (.error (.capacity e), _, logs) =>
    { exit := 101, stderr := CommandLine.lines (stderr ++ [e.message]),
      logs := shown (first ++ logs) }
  | (.error (.controller e), _, logs) => failed (.controller e) stderr (shown (first ++ logs))
  | (.ok (.error f), _, logs) => failed f stderr (shown (first ++ logs))
  | (.ok (.ok report), _, logs) =>
    { exit := 0, stderr := complaints stderr,
      logs := shown (first ++ logs ++ [stoppedLog report]) }

def ofArguments (arguments : List String) (host : Host) (n : Network)
    (lookup : String → Option String) : Transcript :=
  match CommandLine.parse arguments with
  | .error r =>
    if r.isAnswer then { exit := 0, stdout := r.message } else { exit := 2, stderr := r.message }
  | .ok c =>
    match c.loadConfig host.files lookup with
    | .error e => failed (.config e) [] []
    | .ok loaded => serve c.mode loaded host n lookup

def configPath? (arguments : List String) : Option Path :=
  (CommandLine.parse arguments).toOption.map fun c => c.config.getD Config.usualPath

def searchRoot? (arguments : List String) (files : FileSystem) (lookup : String → Option String) :
    Option Path :=
  match CommandLine.parse arguments with
  | .ok c => (c.loadConfig files lookup).toOption.map fun loaded => loaded.config.search.root
  | .error _ => none

end Transcript

end SearchRelay
