import SearchRelay.Config.Reader
import SearchRelay.Log
import SearchRelay.Text.Numeral

namespace SearchRelay

abbrev Environment := List (String × String)

def Environment.get? (e : Environment) (name : String) : Option String := List.lookup name e

namespace Config

inductive Warning
  | invalidPort (value : String) (why : Text.NumeralError)
  deriving DecidableEq, Repr

def Warning.toLog : Warning → LogEntry
  | .invalidPort value why =>
    ⟨.warn, "Ignoring invalid CEDAR_PORT", [("value", .plain value), ("error", .plain why.message)]⟩

def override (c : Config) (lookup : String → Option String) : Config × List Warning :=
  let c :=
    match lookup "CEDAR_SEARCH_ROOT" with
    | some root => { c with search := { c.search with root := root } }
    | none => c
  match lookup "CEDAR_PORT" with
  | none => (c, [])
  | some value =>
    match Text.readBounded maxPort value with
    | .ok port => ({ c with server := { c.server with port := port } }, [])
    | .error why => (c, [.invalidPort value why])

end Config

end SearchRelay
