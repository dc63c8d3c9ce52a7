import SearchRelay.Files.Errno
import SearchRelay.Network.SocketAddress
import SearchRelay.Text.Quoted

/-!
Listening on an address of a host that is cut off: none of its interfaces has an address. Then
every IPv4 address can be listened on, of the others only the unspecified one, and no address can
be reached.
-/

namespace SearchRelay

inductive ServerError
  | bind (reason : String)
  | serve (reason : String)
  deriving DecidableEq, Repr

namespace ServerError

def message : ServerError → String
  | bind r => s!"bind error: {r}"
  | serve r => s!"serve error: {r}"

def details : ServerError → String
  | bind r => s!"Bind({Text.Quoted.quote r})"
  | serve r => s!"Serve({Text.Quoted.quote r})"

end ServerError

inductive BindFault
  | invalidAddress
  | refused (address : SocketAddress) (errno : Errno)
  deriving DecidableEq, Repr

namespace BindFault

def message : BindFault → String
  | invalidAddress => "invalid address: invalid socket address syntax"
  | refused a e => s!"bind failed on {a.toText}: {(IoError.system e).message}"

def toServerError (f : BindFault) : ServerError := .bind f.message

end BindFault

structure Network where
  listening : List SocketAddress := []
  freePort : UInt16 := 49152
  deriving DecidableEq, Repr

namespace Network

/-- The number of the interface that a host has to itself. -/
def loopback : UInt32 := 1

def refusal? (a : SocketAddress) : Option Errno :=
  match a.ip with
  | .v4 _ => none
  | .v6 i =>
    if i.isUnspecified || i.ipv4?.isSome then none
    else if i.isMulticast then some .invalidArgument
    else if i.isLinkLocal && a.scope != loopback then
      some (if a.scope = 0 then .invalidArgument else .noInterface)
    else some .addressNotAvailable

/-- A connection to the port could be meant for either. An unspecified address stands for all
others, the unspecified IPv6 address also for those of IPv4. -/
def overlap (a b : IpAddress) : Bool :=
  match a.ipv4?, b.ipv4? with
  | some x, some y => x == y || x == .unspecified || y == .unspecified
  | _, _ => a == b || (a.isUnspecified && a.ipv4?.isNone) || (b.isUnspecified && b.ipv4?.isNone)

def isTaken (n : Network) (a : SocketAddress) : Bool :=
  n.listening.any fun b => b.port == a.port && overlap a.ip b.ip

/-- Listens on an address; port zero leaves the choice to the system. -/
def listen (n : Network) (a : SocketAddress) : Except BindFault (SocketAddress × Network) :=
  match refusal? a with
  | some e => .error (.refused a e)
  | none =>
    let chosen := if a.port = 0 then { a with port := n.freePort } else a
    if a.port != 0 && n.isTaken a then .error (.refused a .addressInUse)
    else .ok (chosen, { n with listening := n.listening ++ [chosen] })

/-- Connects to an address, which nobody here can. -/
def reach (_ : Network) (_ : SocketAddress) : Except Errno Empty := .error .networkUnreachable

def resolve? (host : String) (port : Nat) : Option SocketAddress :=
  SocketAddress.parse? s!"{host}:{port}"

def bind (n : Network) (host : String) (port : Nat) : Except BindFault (SocketAddress × Network) :=
  match resolve? host port with
  | none => .error .invalidAddress
  | some a => n.listen a

end Network

end SearchRelay
