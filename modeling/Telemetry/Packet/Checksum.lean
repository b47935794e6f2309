/-!
# Checksum — CRC-32

The reflected CRC-32 with polynomial `0x04C11DB7`: the register starts as all ones, takes in each
byte with its least significant bit first, and is inverted at the end.
-/

namespace Telemetry
namespace Checksum

/-- The polynomial, bits reflected. -/
def polynomial : BitVec 32 := 0xEDB88320#32

/-- Shift one bit out of the register. -/
def shiftBit (r : BitVec 32) : BitVec 32 :=
  if r.getLsbD 0 then (r >>> 1) ^^^ polynomial else r >>> 1

def shiftBits : Nat → BitVec 32 → BitVec 32
  | 0, r => r
  | n + 1, r => shiftBits n (shiftBit r)

/-- Take one byte into the register. -/
def feed (r : BitVec 32) (b : UInt8) : BitVec 32 :=
  shiftBits 8 (r ^^^ b.toBitVec.setWidth 32)

def feedAll (r : BitVec 32) (bytes : List UInt8) : BitVec 32 :=
  bytes.foldl feed r

/-- The CRC-32 of a byte string. -/
def crc32 (bytes : List UInt8) : UInt32 :=
  ⟨~~~feedAll (BitVec.allOnes 32) bytes⟩

end Checksum
end Telemetry
