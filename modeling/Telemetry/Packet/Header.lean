import Telemetry.Packet.Checksum
import Telemetry.Packet.Limit
import Telemetry.Text.Numeral
import Telemetry.Wire.BigEndian

/-!
# Packet headers

```
version  reserved  length  checksum  timestamp  payload …
byte 0   byte 1    2–3     4–7       8–15       to `length`
```

All numbers are big-endian.  The length counts the whole datagram.  The checksum covers the whole
datagram with its own four bytes taken as zero.
-/

namespace Telemetry

structure PacketHeader where
  version : UInt8
  reserved : UInt8
  length : UInt16
  checksum : UInt32
  timestamp : UInt64
  deriving DecidableEq, Repr

namespace PacketHeader

def bytes (h : PacketHeader) : List UInt8 :=
  [h.version, h.reserved] ++ Wire.bigEndian 2 h.length.toNat
    ++ Wire.bigEndian 4 h.checksum.toNat ++ Wire.bigEndian 8 h.timestamp.toNat

@[simp] theorem length_bytes (h : PacketHeader) : h.bytes.length = headerSize := by
  simp [bytes, headerSize]

/-- Put the header over the front of a buffer. -/
def write (h : PacketHeader) (buffer : List UInt8) : List UInt8 :=
  h.bytes ++ buffer.drop headerSize

/-- The header at the front of a byte string that is long enough. -/
def read? (bytes : List UInt8) : Option PacketHeader :=
  match bytes with
  | version :: reserved :: rest =>
      if headerSize ≤ bytes.length then
        some
          { version := version
            reserved := reserved
            length := (Wire.ofBigEndian (rest.take 2)).toUInt16
            checksum := (Wire.ofBigEndian ((rest.drop 2).take 4)).toUInt32
            timestamp := (Wire.ofBigEndian ((rest.drop 6).take 8)).toUInt64 }
      else
        none
  | _ => none

end PacketHeader

/-! ## The checksum of a datagram -/

def checksumOffset : Nat := 4

/-- The checksum of a datagram, its checksum field taken as zero. -/
def datagramChecksum (datagram : List UInt8) : UInt32 :=
  Checksum.crc32
    (datagram.take checksumOffset ++ [0, 0, 0, 0] ++ datagram.drop (checksumOffset + 4))

/-- The checksum of a datagram that is long enough to hold a checksum field. -/
def datagramChecksum? (datagram : List UInt8) : Option UInt32 :=
  if checksumOffset + 4 ≤ datagram.length then some (datagramChecksum datagram) else none

def checksumText (c : UInt32) : String :=
  String.ofList (Text.hexDigits 8 c.toNat)

end Telemetry
