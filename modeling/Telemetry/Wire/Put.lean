import Telemetry.Wire.Writer

/-!
# Put — numbers written in place

A writer puts numbers of five forms, and a value as one of them.  To put a number is to claim its
bytes and then to overwrite them, each on the writer as the step before left it; what a refused claim
leaves is the writer that the next put finds.
-/

namespace Telemetry
namespace Wire

/-- A number to be put. -/
inductive Put where
  | u8 (n : UInt8)
  | u16 (n : UInt16)
  | u32 (n : UInt32)
  | u64 (n : UInt64)
  | i64 (n : Int64)
  deriving DecidableEq, Repr

namespace Put

def size : Put → Nat
  | u8 _ => 1
  | u16 _ => 2
  | u32 _ => 4
  | u64 _ | i64 _ => 8

/-- The number as its bytes spell it; a negative one in two's complement. -/
def raw : Put → Nat
  | u8 n => n.toNat
  | u16 n => n.toNat
  | u32 n => n.toNat
  | u64 n => n.toNat
  | i64 n => n.toUInt64.toNat

def bytes (p : Put) : List UInt8 :=
  bigEndian p.size p.raw

@[simp] theorem length_bytes (p : Put) : p.bytes.length = p.size := by
  simp [bytes]

def ofValue : Value → Put
  | .counter64 n => u64 n
  | .counter32 n => u32 n
  | .percent p => u16 p.tenths
  | .scaled s => u16 s.hundredths
  | .fixed f => i64 f.millionths
  | .byte b => u8 b

@[simp] theorem bytes_ofValue (v : Value) : (ofValue v).bytes = v.bytes := by
  cases v <;> rfl

end Put

namespace Writer

/-- Claim the next `size` bytes, if one stays free behind them: where they start. -/
def claim (w : Writer) (size : Nat) : Except WireError Nat × Writer :=
  if w.offset + size ≥ w.capacity then (.error (.overflow w.offset size w.capacity), w)
  else (.ok w.offset, { w with offset := w.offset + size })

/-- Overwrite the bytes from `start` on; undefined if that passes the end of the buffer. -/
def overwrite? (w : Writer) (start : Nat) (bytes : List UInt8) : Option Writer :=
  if h : start + bytes.length ≤ w.capacity then
    some
      { w with
        buffer := w.buffer.take start ++ bytes ++ w.buffer.drop (start + bytes.length)
        length_buffer := by
          have := w.length_buffer
          simp
          omega }
  else none

/-- Put a number: the answer, and the writer after it. -/
def perform (w : Writer) (p : Put) : Option (Except WireError Unit × Writer) :=
  match w.claim p.size with
  | (.error e, w) => some (.error e, w)
  | (.ok start, w) => (w.overwrite? start p.bytes).map fun w => (.ok (), w)

/-- Put one number after another, whatever the answers are. -/
def performAll (w : Writer) : List Put → Option (List (Except WireError Unit) × Writer)
  | [] => some ([], w)
  | p :: ps => do
      let (answer, w) ← w.perform p
      let (answers, w) ← w.performAll ps
      return (answer :: answers, w)

end Writer
end Wire
end Telemetry
