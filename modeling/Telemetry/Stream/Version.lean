import Telemetry.Stream.Error

/-!
# Protocol versions

Two versions are understood.  A version fixes the longest argument and the kinds that exist; the
older one knows the kinds below its sentinel only.
-/

namespace Telemetry

inductive ProtocolVersion where
  /-- version 1: arguments of 15 bytes, kinds up to `fileSystem` -/
  | older
  /-- version 2: arguments of 63 bytes, every kind -/
  | current
  deriving DecidableEq, Repr

namespace ProtocolVersion

def toByte : ProtocolVersion → UInt8
  | older => 1
  | current => 2

def ofByte (b : UInt8) : Except StreamError ProtocolVersion :=
  if b == 1 then .ok older
  else if b == 2 then .ok current
  else .error (.unsupportedVersion b)

@[simp] theorem ofByte_toByte (v : ProtocolVersion) : ofByte v.toByte = .ok v := by
  cases v <;> rfl

/-- Bytes of the longest argument, its terminator apart. -/
def maxArgument : ProtocolVersion → Nat
  | older => 15
  | current => 63

/-- First tag that the version does not define. -/
def sentinel : ProtocolVersion → UInt8
  | older => 12
  | current => StreamKind.sentinel

def supports (v : ProtocolVersion) (k : StreamKind) : Bool :=
  k.tag < v.sentinel

/-- The kind behind a tag; the tag is held against the sentinel of the version first. -/
def kindOf (v : ProtocolVersion) (tag : UInt8) : Except StreamError StreamKind :=
  if tag ≥ v.sentinel then .error (.unknownTag tag v.sentinel)
  else match StreamKind.ofTag? tag with
    | some k => .ok k
    | none => .error (.unknownTag tag StreamKind.sentinel)

end ProtocolVersion
end Telemetry
