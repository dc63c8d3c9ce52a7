import SearchRelay.Network.Ipv6

namespace SearchRelay

inductive IpAddress
  | v4 (address : Ipv4Address)
  | v6 (address : Ipv6Address)
  deriving DecidableEq, Repr

namespace IpAddress

def toText : IpAddress → String
  | v4 i => i.toText
  | v6 i => i.toText

def ipv4? : IpAddress → Option Ipv4Address
  | v4 i => some i
  | v6 i => i.ipv4?

def isUnspecified : IpAddress → Bool
  | v4 i => i == .unspecified
  | v6 i => i.isUnspecified

end IpAddress

structure SocketAddress where
  ip : IpAddress
  port : UInt16
  /-- The interface of an IPv6 address; zero if none is named. -/
  scope : UInt32 := 0
  deriving DecidableEq, Repr

namespace SocketAddress

def toText (s : SocketAddress) : String :=
  match s.ip with
  | .v4 i => s!"{i.toText}:{s.port}"
  | .v6 i =>
    let scope := if s.scope = 0 then "" else s!"%{s.scope}"
    s!"[{i.toText}{scope}]:{s.port}"

def readPort? (cs : List Char) : Option (UInt16 × List Char) :=
  ((Text.after? ':' cs).bind (Text.readNumber? 10 none true 0xffff)).map fun (n, r) =>
    (n.toUInt16, r)

/-- What cannot be read as the number of an interface is left for the bracket to refuse. -/
def readScope (cs : List Char) : UInt32 × List Char :=
  match (Text.after? '%' cs).bind (Text.readNumber? 10 none true 0xffffffff) with
  | some (n, r) => (n.toUInt32, r)
  | none => (0, cs)

def readV4? (cs : List Char) : Option (SocketAddress × List Char) := do
  let (ip, r) ← Ipv4Address.read? cs
  let (port, r) ← readPort? r
  pure (⟨.v4 ip, port, 0⟩, r)

def readV6? (cs : List Char) : Option (SocketAddress × List Char) := do
  let (ip, r) ← (Text.after? '[' cs).bind Ipv6Address.read?
  let (scope, r) := readScope r
  let r ← Text.after? ']' r
  let (port, r) ← readPort? r
  pure (⟨.v6 ip, port, scope⟩, r)

def parse? (s : String) : Option SocketAddress :=
  match (readV4? s.toList).or (readV6? s.toList) with
  | some (address, []) => some address
  | _ => none

end SocketAddress

end SearchRelay
