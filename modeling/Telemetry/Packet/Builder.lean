import Telemetry.Packet.Header
import Telemetry.Wire.Measurement

/-!
# Packet builder

A builder gathers packed measurements below a packet limit.  A measurement that does not fit is
refused whole and leaves the builder as it was.  `buildPackets` spreads a list of measurements over
as many packets as it takes: one that does not fit closes the packet at hand and opens the next, and
one too large for an empty packet is left out.
-/

namespace Telemetry

structure PacketBuilder where
  limit : PacketLimit
  timestamp : UInt64
  payload : List UInt8
  count : Nat

namespace PacketBuilder

/-- A packet without measurements. -/
def start (limit : PacketLimit) (timestamp : UInt64) : PacketBuilder where
  limit := limit
  timestamp := timestamp
  payload := []
  count := 0

/-- Bytes of the finished datagram. -/
def size (b : PacketBuilder) : Nat :=
  headerSize + b.payload.length

def isEmpty (b : PacketBuilder) : Bool :=
  b.count == 0

/-- Add a measurement and tell whether it fitted. -/
def push (b : PacketBuilder) (m : Measurement) : Bool × PacketBuilder :=
  let needed := m.packedSize .current
  if b.limit.bytes ≤ b.size + needed then (false, b)
  else
    let (written, room) := m.pack .current (List.replicate (b.limit.bytes - b.size) 0)
    -- a short pack is refused whole
    if written ≠ needed then (false, b)
    else (true, { b with payload := b.payload ++ room.take written, count := b.count + 1 })

/-- The datagram, with its length and checksum. -/
def finish (b : PacketBuilder) : List UInt8 :=
  let header : PacketHeader :=
    { version := ProtocolVersion.current.toByte
      reserved := 0
      length := b.size.toUInt16
      checksum := 0
      timestamp := b.timestamp }
  let checksum := datagramChecksum (header.bytes ++ b.payload)
  { header with checksum := checksum }.bytes ++ b.payload

end PacketBuilder

/-! ## Spreading measurements over packets -/

/-- Packets for the measurements still to come, after the open packet `b`. -/
def continuePackets (b : PacketBuilder) : List Measurement → List (List UInt8)
  | [] => if b.isEmpty then [] else [b.finish]
  | m :: ms =>
      match b.push m with
      | (true, b') => continuePackets b' ms
      | (false, _) =>
          -- a measurement that no packet of its own can hold is left out
          if b.isEmpty then continuePackets b ms
          else b.finish :: continuePackets ((PacketBuilder.start b.limit b.timestamp).push m).2 ms

/-- Pack measurements, in order, into datagrams below the limit. -/
def buildPackets (limit : PacketLimit) (timestamp : UInt64) (ms : List Measurement) :
    List (List UInt8) :=
  continuePackets (PacketBuilder.start limit timestamp) ms

end Telemetry
