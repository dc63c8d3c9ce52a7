import SearchRelay.Config.Reader
import SearchRelay.Proofs.Yaml.Sheet

namespace SearchRelay.Config

open Yaml (Name Row Cell Part Remark Spelling)

structure Entry (V : Type) where
  name : Name
  value : V
  isDefault : Bool

/-- What is up to those who write a configuration. -/
structure Layout where
  spelling : Spelling
  /-- Which fields and sections are left out as long as they hold their defaults. -/
  omits : Yaml.Path → Bool
  remarks : Yaml.Path → List Remark
  /-- How much further to the right than its name a list stands. -/
  indent : Nat
  ending : List Remark

namespace Layout

variable {V : Type} (lay : Layout)

def writes (path : Yaml.Path) (e : Entry V) : Bool :=
  !(e.isDefault && lay.omits (path ++ [.key e.name.val]))

def rows (path : Yaml.Path) (es : List (Entry V)) : List (Row V) :=
  (es.filter (lay.writes path)).map fun e =>
    ⟨lay.remarks (path ++ [.key e.name.val]), e.name, e.value⟩

def texts (path : Yaml.Path) (ss : List String) : Cell :=
  .list lay.indent (ss.mapIdx fun i s => ⟨lay.remarks (path ++ [.item i]), s⟩)

def server (s : ServerSettings) : List (Entry Cell) :=
  let d : ServerSettings := {}
  [⟨⟨"host", by decide +kernel⟩, .text s.host, s.host == d.host⟩,
    ⟨⟨"port", by decide +kernel⟩, .number s.port, s.port == d.port⟩,
    ⟨⟨"websocket_path", by decide +kernel⟩, .text s.websocketPath,
      s.websocketPath == d.websocketPath⟩,
    ⟨⟨"broadcast_capacity", by decide +kernel⟩, .number s.broadcastCapacity,
      s.broadcastCapacity == d.broadcastCapacity⟩]

def search (s : SearchSettings) : List (Entry Cell) :=
  let d : SearchSettings := {}
  [⟨⟨"root", by decide +kernel⟩, .text s.root, s.root == d.root⟩,
    ⟨⟨"rescan_interval_secs", by decide +kernel⟩, .number s.rescanInterval,
      s.rescanInterval == d.rescanInterval⟩,
    ⟨⟨"path_masks", by decide +kernel⟩,
      lay.texts [.key "search", .key "path_masks"] s.pathMasks, s.pathMasks == d.pathMasks⟩]

def mock (s : MockSettings) : List (Entry Cell) :=
  let d : MockSettings := {}
  [⟨⟨"progress_interval_ms", by decide +kernel⟩, .number s.progressInterval,
      s.progressInterval == d.progressInterval⟩,
    ⟨⟨"total_files", by decide +kernel⟩, .number s.totalFiles, s.totalFiles == d.totalFiles⟩]

def shutdown (s : ShutdownSettings) : List (Entry Cell) :=
  let d : ShutdownSettings := {}
  [⟨⟨"drain_timeout_ms", by decide +kernel⟩, .number s.drainTimeout,
      s.drainTimeout == d.drainTimeout⟩]

def logging (s : LoggingSettings) : List (Entry Cell) :=
  let d : LoggingSettings := {}
  [⟨⟨"level", by decide +kernel⟩, .text s.level, s.level == d.level⟩]

def sections (c : Config) : List (Entry (List (Row Cell))) :=
  let d : Config := {}
  [⟨⟨"server", by decide +kernel⟩, lay.rows [.key "server"] (server c.server),
      c.server == d.server⟩,
    ⟨⟨"search", by decide +kernel⟩, lay.rows [.key "search"] (lay.search c.search),
      c.search == d.search⟩,
    ⟨⟨"mock", by decide +kernel⟩, lay.rows [.key "mock"] (mock c.mock), c.mock == d.mock⟩,
    ⟨⟨"shutdown", by decide +kernel⟩, lay.rows [.key "shutdown"] (shutdown c.shutdown),
      c.shutdown == d.shutdown⟩,
    ⟨⟨"logging", by decide +kernel⟩, lay.rows [.key "logging"] (logging c.logging),
      c.logging == d.logging⟩]

/-- The text of a configuration. -/
def render (c : Config) : String :=
  lay.spelling.sheet (lay.rows [] (lay.sections c)) lay.ending

end Layout

end SearchRelay.Config
