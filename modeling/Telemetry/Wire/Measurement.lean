import Telemetry.Stream.Key
import Telemetry.Stream.Record
import Telemetry.Stream.Version
import Telemetry.Wire.Reader
import Telemetry.Wire.Writer

/-!
# Measurements on the wire

A packed measurement is the tag of its kind, the argument with a NUL behind it, and the fields in
order.  Past the tag the form does not describe itself, so the tag is held against the sentinel of
the protocol version before the shape behind it is used.

`Measurement.pack` cuts an argument that is too long at a character boundary and stops at the first
field that does not fit; `Measurement.unpack` reads one measurement from the front of a byte string
and says how many bytes it took.
-/

namespace Telemetry

/-- One measurement of a channel. -/
structure Measurement where
  argument : String
  record : Record
  deriving DecidableEq

namespace Measurement

def kind (m : Measurement) : StreamKind :=
  m.record.kind

def text (m : Measurement) : String :=
  channelText m.kind m.argument

def isOf (m : Measurement) (key : StreamKey) : Bool :=
  key.isNamed m.kind m.argument

/-! ## Packing -/

/-- Bytes of the complete packed form. -/
def packedSize (v : ProtocolVersion) (m : Measurement) : Nat :=
  1 + (Utf8.cut v.maxArgument m.argument).utf8ByteSize + 1 + m.kind.payloadSize

/-- The tag, the argument cut to `limit` bytes, and its terminator. -/
def header (limit : Nat) (m : Measurement) : List UInt8 :=
  m.kind.tag :: (Utf8.encode (Utf8.cut limit m.argument) ++ [0])

/-- Pack into a buffer, giving the bytes written and the buffer after it.

Nothing is written if the buffer has no room for a tag and a terminator, or if the version lacks
the kind.  A short pack is recognised by a count other than `packedSize`. -/
def pack (v : ProtocolVersion) (buffer : List UInt8) (m : Measurement) : Nat × List UInt8 :=
  let capacity := buffer.length
  if capacity < 2 then (0, buffer)
  else if !v.supports m.kind then (0, buffer)
  else
    -- the tag and the terminator keep their two bytes whatever the argument is
    let head := m.header (min v.maxArgument (capacity - 2))
    let begun := Wire.Writer.start (head ++ buffer.drop head.length) head.length
    let filled := begun.putWhileFits m.record.values
    (filled.offset, filled.buffer)

/-! ## Unpacking -/

/-- Read one measurement from the front of `bytes`, with the count of bytes it took. -/
def unpack (v : ProtocolVersion) (bytes : List UInt8) : Except WireError (Measurement × Nat) :=
  match bytes with
  | [] => .error (.truncated 1 0)
  | tag :: rest =>
      -- without a known tag nothing behind it has a shape
      match v.kindOf tag with
      | .error e => .error (.stream e)
      | .ok kind =>
          let limit := v.maxArgument + 1
          -- the terminator must stand within the longest argument and one byte more
          match (rest.take limit).idxOf? 0 with
          | none => .error (.unterminatedArgument limit)
          | some nul =>
              match Utf8.decode (rest.take nul) with
              | .error fault => .error (.argumentNotText fault)
              | .ok argument =>
                  match (Wire.Reader.mk bytes (nul + 2)).getValues kind.shape with
                  | .error e => .error e
                  | .ok (values, reader) =>
                      match Record.ofValues kind values with
                      | .error e => .error (.stream e)
                      | .ok record => .ok (⟨argument, record⟩, reader.offset)

/-- Every packed measurement takes at least a tag and a terminator. -/
theorem two_le_of_unpack {v : ProtocolVersion} {bytes : List UInt8} {m : Measurement} {n : Nat}
    (h : unpack v bytes = .ok (m, n)) : 2 ≤ n ∧ bytes ≠ [] := by
  unfold unpack at h
  split at h
  · contradiction
  · split at h
    · contradiction
    · dsimp only at h
      split at h
      · contradiction
      · next nul _ =>
        split at h
        · contradiction
        · split at h
          · contradiction
          · next reader hread =>
            split at h
            · contradiction
            · simp only [Except.ok.injEq, Prod.mk.injEq] at h
              have := Wire.Reader.offset_of_getValues hread
              simp only at this
              exact ⟨by omega, by simp⟩

/-- Read the measurements of a payload in order, up to the first malformed one, which comes last
as an error: what follows it cannot be found without it. -/
def unpackAll (v : ProtocolVersion) (bytes : List UInt8) : List (Except WireError Measurement) :=
  if bytes = [] then []
  else
    match _h : unpack v bytes with
    | .error e => [.error e]
    | .ok (m, used) => .ok m :: unpackAll v (bytes.drop used)
termination_by bytes.length
decreasing_by
  have hu := two_le_of_unpack _h
  have := List.length_pos_iff.mpr hu.2
  simp only [List.length_drop]
  omega

end Measurement
end Telemetry
