import Telemetry.Address.Network
import Telemetry.Transport.Inbox

/-!
# Receiver — a bound socket

A socket is bound on a network, and watched for readiness at most once at a time.
-/

namespace Telemetry

structure Receiver where
  address : SocketAddress
  watched : Bool
  received : Nat
  deriving DecidableEq

namespace Receiver

def bind (n : Network) (address : SocketAddress) : Except TransportError Receiver :=
  if n.canBind address then .ok ⟨address, false, 0⟩
  else
    .error (.bind "could not bind receive socket" address SystemFault.addressNotAvailable.kind)

/-- Watch the socket for readiness. -/
def watch (r : Receiver) : Except TransportError Receiver :=
  if r.watched then
    .error (.io SystemFault.alreadyThere.message SystemFault.alreadyThere.kind)
  else .ok { r with watched := true }

def unwatch (r : Receiver) : Except TransportError Receiver :=
  if r.watched then .ok { r with watched := false }
  else .error (.io SystemFault.notFound.message SystemFault.notFound.kind)

/-- Receive one datagram into a buffer; what the buffer cannot hold is lost. -/
def receive (r : Receiver) (capacity : Nat) (inbox : List Arrival) :
    Received × Receiver × List Arrival :=
  match Inbox.receive inbox with
  | (.datagram sender bytes, rest) =>
      (.datagram sender (bytes.take capacity), { r with received := r.received + 1 }, rest)
  | (other, rest) => (other, r, rest)

end Receiver
end Telemetry
