import Telemetry.Address.Ip
import Telemetry.Files.Fault

/-!
# Transport errors

Why a socket could not be opened, or a datagram not be sent or received.
-/

namespace Telemetry

/-- What kind of failure stands behind an error, as far as it matters whether to try again. -/
inductive FailureKind where
  | interrupted
  | wouldBlock
  | connectionRefused
  | timedOut
  | other
  deriving DecidableEq, Repr

def SystemFault.kind : SystemFault → FailureKind
  | interrupted => .interrupted
  | tryAgain => .wouldBlock
  | connectionRefused => .connectionRefused
  | timedOut => .timedOut
  | _ => .other

inductive TransportError where
  | bind (text : String) (address : SocketAddress) (cause : FailureKind)
  | send (text : String) (remote : SocketAddress) (cause : FailureKind)
  | oversized (size limit : Nat)
  | io (text : String) (cause : FailureKind)
  deriving DecidableEq

namespace TransportError

def message : TransportError → String
  | bind text address _ => s!"Bind error: {text} (local: {address.text})"
  | send text remote _ => s!"Send error: {text} (remote: {remote.text})"
  | oversized size limit => s!"Datagram of {size} bytes exceeds limit {limit}"
  | io text _ => s!"I/O error: {text}"

def category : TransportError → String
  | bind .. => "bind"
  | send .. => "send"
  | oversized .. => "oversized"
  | io .. => "io"

/-- Whether the next attempt may succeed without anything being done. -/
def isTransient : TransportError → Bool
  | send _ _ cause | io _ cause => cause ≠ .other
  | bind .. | oversized .. => false

end TransportError
end Telemetry
