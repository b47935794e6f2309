import Telemetry.Packet.Header
import Telemetry.Wire.Measurement

/-!
# Packets — received datagrams

`Packet.parse` checks a datagram: its size first, then checksum, version and declared length.
`Packet.measurements` reads the measurements of a packet that passed.
-/

namespace Telemetry

inductive Rejection where
  | tooShort (length : Nat)
  | unsupportedVersion (version : UInt8)
  | lengthMismatch (declared received : Nat)
  | checksumMismatch (received calculated : UInt32)
  deriving DecidableEq, Repr

namespace Rejection

def message : Rejection → String
  | tooShort length => s!"Datagram too short: {length} bytes, header needs {headerSize}"
  | unsupportedVersion version => s!"Unsupported protocol version {version}"
  | lengthMismatch declared received =>
      s!"Length mismatch: header declares {declared} bytes, received {received}"
  | checksumMismatch received calculated =>
      s!"Checksum mismatch: received {checksumText received}, calculated {checksumText calculated}"

def report (r : Rejection) (sender : String) : String :=
  s!"Rejected packet from {sender}: {r.message}"

end Rejection

/-- A datagram that passed every check. -/
structure Packet where
  header : PacketHeader
  version : ProtocolVersion
  payload : List UInt8
  deriving DecidableEq

namespace Packet

def parse (datagram : List UInt8) : Except Rejection Packet :=
  match PacketHeader.read? datagram with
  | none => .error (.tooShort datagram.length)
  | some header =>
      let calculated := datagramChecksum datagram
      -- a damaged datagram tells nothing about its version or length
      if header.checksum ≠ calculated then
        .error (.checksumMismatch header.checksum calculated)
      else
        match ProtocolVersion.ofByte header.version with
        | .error _ => .error (.unsupportedVersion header.version)
        | .ok version =>
            if header.length.toNat ≠ datagram.length then
              .error (.lengthMismatch header.length.toNat datagram.length)
            else
              .ok
                { header := header
                  version := version
                  payload := datagram.drop headerSize }

def timestamp (p : Packet) : UInt64 :=
  p.header.timestamp

/-- The measurements in order; a malformed one is the last entry. -/
def measurements (p : Packet) : List (Except WireError Measurement) :=
  Measurement.unpackAll p.version p.payload

/-- The measurements in front of the first malformed one. -/
def wellFormed (p : Packet) : List Measurement :=
  p.measurements.filterMap Except.toOption

end Packet
end Telemetry
