import Telemetry.Transport.Error

/-!
# Inbox — what a socket has waiting

The outcomes that a socket will give, first come first.  Receiving is tried a few times; an interrupted
attempt uses up an outcome, and an empty inbox would block.
-/

namespace Telemetry

inductive Arrival where
  | datagram (sender : SocketAddress) (bytes : List UInt8)
  | interrupted
  | fault (f : SystemFault)
  deriving DecidableEq

/-- Attempts for one datagram. -/
def receiveAttempts : Nat := 5

inductive Received where
  | datagram (sender : SocketAddress) (bytes : List UInt8)
  | nothing
  | failed (e : TransportError)
  deriving DecidableEq

namespace Inbox

/-- Try to receive one datagram; the outcomes left are answered too. -/
def receiveWithin : (attempts : Nat) → List Arrival → Received × List Arrival
  | 0, inbox => (.nothing, inbox)
  | _ + 1, [] => (.nothing, [])
  | _ + 1, .datagram sender bytes :: inbox => (.datagram sender bytes, inbox)
  | _ + 1, .fault f :: inbox => (.failed (.io f.message f.kind), inbox)
  -- an interruption uses up an attempt but loses nothing
  | attempts + 1, .interrupted :: inbox => receiveWithin attempts inbox

def receive (inbox : List Arrival) : Received × List Arrival :=
  receiveWithin receiveAttempts inbox

theorem length_of_receiveWithin {attempts : Nat} {inbox rest : List Arrival}
    {sender : SocketAddress} {bytes : List UInt8}
    (h : receiveWithin attempts inbox = (.datagram sender bytes, rest)) :
    rest.length < inbox.length := by
  induction attempts generalizing inbox with
  | zero => simp [receiveWithin] at h
  | succ n ih =>
      match inbox with
      | [] => simp [receiveWithin] at h
      | .datagram _ _ :: _ =>
          simp only [receiveWithin, Prod.mk.injEq] at h
          simp [← h.2]
      | .fault _ :: _ => simp [receiveWithin] at h
      | .interrupted :: tail =>
          have h' : receiveWithin n tail = (.datagram sender bytes, rest) := by
            simpa [receiveWithin] using h
          have := ih h'
          simp only [List.length_cons]
          omega

end Inbox
end Telemetry
