import SearchRelay.Config.Basic
import SearchRelay.Text.Blank
import SearchRelay.Yaml.Decoder

namespace SearchRelay.Config

open Yaml (Decoder)

def maxPort : Nat := 65535
def maxWord : Nat := Nat.pow 2 64 - 1

def field {α σ : Type} (name : String) (decoder : Decoder α) (set : α → σ → σ) :
    Decoder.Field σ :=
  ⟨name, fun d path n => (decoder d path n).map set⟩

def word : Decoder Nat := Decoder.unsigned maxWord "u64"
def text : Decoder String := Decoder.text "a string"

def serverSection : Decoder ServerSettings :=
  Decoder.record "struct ServerSettings"
    [field "host" text fun x s => { s with host := x },
      field "port" (Decoder.unsigned maxPort "u16") fun x s => { s with port := x },
      field "websocket_path" text fun x s => { s with websocketPath := x },
      field "broadcast_capacity" (Decoder.unsigned maxWord "usize")
        fun x s => { s with broadcastCapacity := x }] {}

def searchSection : Decoder SearchSettings :=
  Decoder.record "struct SearchConfig"
    [field "root" (Decoder.text "path string") fun x s => { s with root := x },
      field "rescan_interval_secs" word fun x s => { s with rescanInterval := x },
      field "path_masks" (Decoder.list text) fun x s => { s with pathMasks := x }] {}

def mockSection : Decoder MockSettings :=
  Decoder.record "struct MockConfig"
    [field "progress_interval_ms" word fun x s => { s with progressInterval := x },
      field "total_files" word fun x s => { s with totalFiles := x }] {}

def shutdownSection : Decoder ShutdownSettings :=
  Decoder.record "struct ShutdownConfig"
    [field "drain_timeout_ms" word fun x s => { s with drainTimeout := x }] {}

def loggingSection : Decoder LoggingSettings :=
  Decoder.record "struct LoggingConfig" [field "level" text fun x s => { s with level := x }] {}

def decoder : Decoder Config :=
  Decoder.record "struct CedarConfig"
    [field "server" serverSection fun x c => { c with server := x },
      field "search" searchSection fun x c => { c with search := x },
      field "mock" mockSection fun x c => { c with mock := x },
      field "shutdown" shutdownSection fun x c => { c with shutdown := x },
      field "logging" loggingSection fun x c => { c with logging := x }] {}

/-- A blank text is the default configuration. -/
def read (yaml : String) : Except Yaml.Error Config :=
  if Text.isAllBlank yaml then .ok {} else decoder.run yaml

end SearchRelay.Config
