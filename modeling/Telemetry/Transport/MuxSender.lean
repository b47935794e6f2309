import Telemetry.Packet.Limit
import Telemetry.Transport.Error
import Telemetry.Transport.SendTracker

/-!
# Mux sender — datagrams to one destination

A `Link` says what becomes of a datagram that is handed to the system.  One that is too large is never
handed over and does not count as a failure.
-/

namespace Telemetry

/-- Why the system refuses a datagram for an address, if it does. -/
abbrev Link := SocketAddress → List UInt8 → Option SystemFault

def Link.unreachable : Link := fun _ _ => some .networkUnreachable

structure MuxSender where
  name : String
  remote : SocketAddress
  errors : SendTracker
  sent : Nat
  deriving DecidableEq

namespace MuxSender

def start (name : String) (remote : SocketAddress) : MuxSender :=
  ⟨name, remote, SendTracker.fresh, 0⟩

def send (link : Link) (s : MuxSender) (datagram : List UInt8) :
    Except TransportError Unit × MuxSender :=
  if maxDatagram < datagram.length then (.error (.oversized datagram.length maxDatagram), s)
  else
    match link s.remote datagram with
    | none => (.ok (), { s with errors := s.errors.succeed.2, sent := s.sent + 1 })
    | some fault =>
        (.error (.send "send to mux failed" s.remote fault.kind),
          { s with errors := s.errors.fail.2 })

/-- Send datagrams in order; those that got through are answered. -/
def sendAll (link : Link) (s : MuxSender) (datagrams : List (List UInt8)) :
    List (List UInt8) × MuxSender :=
  datagrams.foldl
    (fun (through, s) d =>
      match s.send link d with
      | (.ok (), s) => (through ++ [d], s)
      | (.error _, s) => (through, s))
    ([], s)

end MuxSender
end Telemetry
