import Telemetry.Address.Ip

/-!
# Network — the addresses that a machine can bind

A socket is bound to an address of its own machine.  With every interface down nothing tells which
version 4 addresses are its own, so all of them can be bound; of version 6 only the unspecified one
can.  The low ports are kept for privileged programs.
-/

namespace Telemetry

structure Network where
  /-- addresses of the interfaces besides loopback ones, or none if every interface is down -/
  interfaces : Option (List IpAddress)
  /-- whether low ports can be bound -/
  privileged : Bool
  deriving DecidableEq

namespace Network

def offline : Network :=
  ⟨none, false⟩

/-- One more than the greatest port kept for privileged programs. -/
def lowPorts : UInt16 := 1024

/-- Whether a port can be bound; port zero stands for any free one. -/
def canBindPort (n : Network) (port : UInt16) : Bool :=
  port == 0 || lowPorts ≤ port || n.privileged

def canBindIp (n : Network) (ip : IpAddress) : Bool :=
  match n.interfaces, ip.canonical with
  | some own, plain => plain.isOwn || own.contains ip || own.contains plain
  | none, .v4 _ => true
  | none, .v6 ip => ip.isUnspecified

def canBind (n : Network) (s : SocketAddress) : Bool :=
  n.canBindPort s.port && n.canBindIp s.ip

end Network
end Telemetry
