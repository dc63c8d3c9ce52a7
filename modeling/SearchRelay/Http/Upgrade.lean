import SearchRelay.Http.Basic
import SearchRelay.Text.Occurrence

namespace SearchRelay.Http

inductive UpgradeFault
  | methodNotGet
  | connectionHeader
  | upgradeHeader
  | keyMissing
  | versionHeader
  /-- The connection under the request cannot become anything else. -/
  | notUpgradable
  deriving DecidableEq, Repr

namespace UpgradeFault

def status : UpgradeFault → Nat
  | methodNotGet => 405
  | notUpgradable => 426
  | _ => 400

def message : UpgradeFault → String
  | methodNotGet => "Request method must be `GET`"
  | connectionHeader => "Connection header did not include 'upgrade'"
  | upgradeHeader => "`Upgrade` header did not include 'websocket'"
  | keyMissing => "`Sec-WebSocket-Key` header missing"
  | versionHeader => "`Sec-WebSocket-Version` header did not include '13'"
  | notUpgradable => "WebSocket request couldn't be upgraded since no upgrade state was present"

def toResponse (f : UpgradeFault) : Response := .ofText f.status f.message

end UpgradeFault

namespace Request

def upgradeFault? (r : Request) (upgradable : Bool) : Option UpgradeFault :=
  let has (name : String) (p : String → Bool) : Bool := (r.header? name).any fun v => p (lower v)
  if r.method ≠ "GET" then some .methodNotGet
  else if !has "connection" (fun v => Text.occurs "upgrade".toList v.toList) then
    some .connectionHeader
  else if !has "upgrade" (· == "websocket") then some .upgradeHeader
  else if (r.header? "sec-websocket-key").isNone then some .keyMissing
  else if !has "sec-websocket-version" (· == "13") then some .versionHeader
  else if !upgradable then some .notUpgradable
  else none

end Request

end SearchRelay.Http
