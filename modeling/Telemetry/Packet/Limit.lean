import Telemetry.Wire.Error

/-!
# Packet limits

The bound that a sender sets on the size of its datagrams.  Every limit leaves room for a header and
the smallest record frame, and none exceeds what a UDP datagram over IPv4 carries.
-/

namespace Telemetry

def headerSize : Nat := 16

/-- Bytes of the largest UDP payload over IPv4. -/
def maxDatagram : Nat := 65507

structure PacketLimit where
  bytes : Nat
  least_le : headerSize + 2 ≤ bytes
  le_greatest : bytes ≤ maxDatagram
  deriving DecidableEq

namespace PacketLimit

/-- The limit if none is configured. -/
def standard : PacketLimit where
  bytes := 8192
  least_le := by decide
  le_greatest := by decide

def ofSize (size : Nat) : Except WireError PacketLimit :=
  if h : headerSize + 2 ≤ size ∧ size ≤ maxDatagram then .ok ⟨size, h.1, h.2⟩
  else .error (.invalidPacketSize size (headerSize + 2) maxDatagram)

end PacketLimit
end Telemetry
