import SearchRelay.CommandLine
import SearchRelay.Config.Overrides
import SearchRelay.Files.FileSystem

/-!
Where a configuration comes from: a file that was named, the usual file if it is there, or the
defaults. The environment has the last word in all three cases.
-/

namespace SearchRelay

inductive ConfigSource
  | file (path : Path)
  | defaults
  deriving DecidableEq, Repr

inductive ConfigError
  | io (source : IoError)
  | yaml (source : Yaml.Error)

namespace ConfigError

def message : ConfigError → String
  | io e => s!"failed to read config file: {e.message}"
  | yaml e => s!"failed to parse config YAML: {e.message}"

def details : ConfigError → String
  | io e => s!"Io \x7b source: {e.details} \x7d"
  | yaml e => s!"Yaml \x7b source: {e.details} \x7d"

end ConfigError

namespace Config

def usualPath : Path := "cedar-config.yaml"

def ofFile (fs : FileSystem) (path : Path) : Except ConfigError Config :=
  match fs.read path with
  | .error e => .error (.io e)
  | .ok text =>
    match Config.read text with
    | .error e => .error (.yaml e)
    | .ok c => .ok c

end Config

structure LoadedConfig where
  config : Config
  source : ConfigSource
  warnings : List Config.Warning

namespace CommandLine

/-- A file that was named has to be there. -/
def source (c : CommandLine) (fs : FileSystem) : ConfigSource :=
  match c.config with
  | some path => .file path
  | none => if fs.exists? Config.usualPath then .file Config.usualPath else .defaults

def loadConfig (c : CommandLine) (fs : FileSystem) (lookup : String → Option String) :
    Except ConfigError LoadedConfig :=
  let source := c.source fs
  let base : Except ConfigError Config :=
    match source with
    | .file path => Config.ofFile fs path
    | .defaults => .ok {}
  base.map fun config =>
    let (config, warnings) := config.override lookup
    ⟨config, source, warnings⟩

end CommandLine

end SearchRelay
