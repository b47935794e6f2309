import Telemetry.Stream.Error
import Telemetry.Text.Utf8

/-!
# Wire errors

Why a measurement could not be written or read, or a packet limit not be set.
-/

namespace Telemetry

inductive WireError where
  | stream (e : StreamError)
  | overflow (offset size capacity : Nat)
  | truncated (needed available : Nat)
  | unterminatedArgument (limit : Nat)
  | argumentNotText (fault : Utf8.Fault)
  | invalidPacketSize (size least greatest : Nat)
  deriving DecidableEq, Repr

namespace WireError

def message : WireError → String
  | stream e => e.message
  | overflow offset size capacity =>
      s!"Buffer overflow: {size} byte field at offset {offset} does not fit capacity {capacity}"
  | truncated needed available =>
      s!"Truncated record: needed {needed} bytes, {available} available"
  | unterminatedArgument limit => s!"Argument not NUL-terminated within {limit} bytes"
  | argumentNotText fault => s!"Argument is not valid UTF-8: {fault.message}"
  | invalidPacketSize size least greatest =>
      s!"Invalid packet size {size}: must be between {least} and {greatest}"

end WireError
end Telemetry
