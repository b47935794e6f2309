import Telemetry.Stream.Kind

/-!
# Stream errors

Why a stream kind, a record or a stream key could not be made.
-/

namespace Telemetry

inductive ArgumentFault where
  | tooLong (limit : Nat)
  | containsNul
  deriving DecidableEq, Repr

inductive StreamError where
  /-- no kind of the version in use has this tag -/
  | unknownTag (tag sentinel : UInt8)
  | unknownName (name : String)
  | shapeMismatch (kind : StreamKind) (expected actual : Nat)
  | kindMismatch (kind : StreamKind) (index : Nat) (expected actual : FieldKind)
  | malformedKey (text : String)
  | invalidArgument (argument : String) (fault : ArgumentFault)
  | unsupportedVersion (version : UInt8)
  deriving DecidableEq, Repr

namespace StreamError

def message : StreamError → String
  | unknownTag tag sentinel => s!"Unknown stream type tag {tag} (sentinel {sentinel})"
  | unknownName name => s!"Unknown stream type name: '{name}'"
  | shapeMismatch kind expected actual =>
      s!"Shape mismatch for {kind.name}: expected {expected} fields, got {actual}"
  | kindMismatch kind index expected actual =>
      s!"Field {index} of {kind.name}: expected {expected.name}, got {actual.name}"
  | malformedKey text => s!"Invalid stream key '{text}': expected 'type' or 'type(argument)'"
  | invalidArgument argument (.tooLong limit) =>
      s!"Invalid argument '{argument}': longer than {limit} bytes"
  | invalidArgument argument .containsNul =>
      s!"Invalid argument '{argument}': contains a NUL byte"
  | unsupportedVersion version => s!"Unsupported protocol version {version}"

end StreamError
end Telemetry
