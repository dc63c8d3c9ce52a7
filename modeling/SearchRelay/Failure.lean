import SearchRelay.Config.Source
import SearchRelay.Network.Listener

namespace SearchRelay

inductive Failure
  | config (source : ConfigError)
  | controller (source : ControllerError)
  | server (source : ServerError)

namespace Failure

def message : Failure → String
  | config e => s!"config error: {e.message}"
  | controller e => s!"controller error: {e.message}"
  | server e => s!"server error: {e.message}"

def details : Failure → String
  | config e => s!"Config \x7b source: {e.details} \x7d"
  | controller e => s!"Controller \x7b source: {e.details} \x7d"
  | server e => s!"Server \x7b source: {e.details} \x7d"

end Failure

end SearchRelay
