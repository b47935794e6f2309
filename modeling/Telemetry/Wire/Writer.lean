import Telemetry.Wire.BigEndian
import Telemetry.Wire.Error

/-!
# Writer — bounded field writing

A writer fills a buffer of fixed size from an offset on.  A field is written only if at least one
byte of the buffer stays free behind it; a refused field changes nothing.
-/

namespace Telemetry
namespace Wire

/-- A buffer that is filled field by field. -/
structure Writer where
  buffer : List UInt8
  offset : Nat
  capacity : Nat
  length_buffer : buffer.length = capacity

namespace Writer

def start (buffer : List UInt8) (offset : Nat) : Writer where
  buffer := buffer
  offset := offset
  capacity := buffer.length
  length_buffer := rfl

/-- Write the bytes of one field. -/
def put (w : Writer) (bytes : List UInt8) : Except WireError Writer :=
  if h : w.offset + bytes.length < w.capacity then
    .ok
      { w with
        buffer := w.buffer.take w.offset ++ bytes ++ w.buffer.drop (w.offset + bytes.length)
        offset := w.offset + bytes.length
        length_buffer := by
          have := w.length_buffer
          simp
          omega }
  else
    .error (.overflow w.offset bytes.length w.capacity)

def putValue (w : Writer) (v : Value) : Except WireError Writer :=
  w.put v.bytes

/-- Write values up to the first that does not fit. -/
def putWhileFits (w : Writer) : List Value → Writer
  | [] => w
  | v :: vs =>
      match w.putValue v with
      | .ok w' => w'.putWhileFits vs
      | .error _ => w

end Writer
end Wire
end Telemetry
