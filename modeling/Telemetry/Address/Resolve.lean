import Telemetry.Address.Literal

/-!
# Resolving hosts

Literal addresses stand for themselves.  Any other host is left to a `Resolver`, which is a function
of the host's text.
-/

namespace Telemetry

/-- Looks up a host: its addresses, or why there are none. -/
abbrev Resolver := String → Except String (List IpAddress)

namespace Resolver

/-- Knows the hosts that are literal addresses, and no others. -/
def literal : Resolver := fun host =>
  match IpAddress.parse? host with
  | some ip => .ok [ip]
  | none => .error "failed to lookup address information: Temporary failure in name resolution"

/-- Look up a host by a resolver; a NUL ends no host name. -/
def lookUp (r : Resolver) (host : String) : Except String IpAddress :=
  if host.toList.contains '\x00' then
    .error "file name contained an unexpected NUL byte"
  else
    match r host with
    | .error reason => .error reason
    | .ok [] => .error "no addresses"
    | .ok (ip :: _) => .ok ip

def host (r : Resolver) (text : String) : Except String IpAddress :=
  match IpAddress.parse? text with
  | some ip => .ok ip
  | none => r.lookUp text

/-- A port as a number of its own, with or without a plus sign. -/
def portNumber? (cs : List Char) : Option UInt16 :=
  let ds := match cs with
    | '+' :: ds => ds
    | ds => ds
  Literal.whole ((Literal.number 10 none true 65535 ds).map fun (n, rest) => (n.toUInt16, rest))

def splitPort? (text : String) : Option (String × List Char) :=
  let back := text.toList.reverse
  let port := back.takeWhile (· != ':')
  match back.drop port.length with
  | _ :: host => some (String.ofList host.reverse, port.reverse)
  | [] => none

/-- The socket address of a `host:port`. -/
def socket (r : Resolver) (text : String) : Except String SocketAddress :=
  match SocketAddress.parse? text with
  | some s => .ok s
  | none =>
      match splitPort? text with
      | none => .error "invalid socket address"
      | some (host, port) =>
          match portNumber? port with
          | none => .error "invalid port value"
          -- the text was no literal, so its host is a name
          | some port => (r.lookUp host).map fun ip => ⟨ip, 0, port⟩

end Resolver
end Telemetry
