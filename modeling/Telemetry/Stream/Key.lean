import Telemetry.Stream.Error
import Telemetry.Text.Blank

/-!
# Stream keys — naming a measurement channel

A key pairs a stream kind with an argument, written `kind` or `kind(argument)`.  The argument of a
key always fits the current protocol version and holds no NUL, so a key is never cut on the wire.
-/

namespace Telemetry

/-- Bytes of the longest argument of a key. -/
def maxKeyArgument : Nat := 63

/-- Names one measurement channel. -/
structure StreamKey where
  kind : StreamKind
  argument : String
  fits : argument.utf8ByteSize ≤ maxKeyArgument
  noNul : '\x00' ∉ argument.toList
  deriving DecidableEq

namespace StreamKey

/-- Pair a kind with an argument that fits and holds no NUL. -/
def ofArgument (kind : StreamKind) (argument : String) : Except StreamError StreamKey :=
  if hlen : argument.utf8ByteSize ≤ maxKeyArgument then
    if hnul : '\x00' ∈ argument.toList then
      .error (.invalidArgument argument .containsNul)
    else
      .ok ⟨kind, argument, hlen, hnul⟩
  else
    .error (.invalidArgument argument (.tooLong maxKeyArgument))

/-- Whether a decoded kind and argument name this stream. -/
def isNamed (key : StreamKey) (kind : StreamKind) (argument : String) : Bool :=
  key.kind == kind && key.argument == argument

/-- Order by tag, then by the argument. -/
def before (a b : StreamKey) : Bool :=
  a.kind.tag < b.kind.tag || (a.kind == b.kind && decide (a.argument < b.argument))

/-- Put a key in its place in a list of keys in order, unless it is there. -/
def place (key : StreamKey) : List StreamKey → List StreamKey
  | [] => [key]
  | k :: ks =>
      if key = k then k :: ks
      else if key.before k then key :: k :: ks
      else k :: place key ks

def sorted (keys : List StreamKey) : List StreamKey :=
  keys.foldl (fun done k => place k done) []

end StreamKey

/-! ## Written form -/

/-- `kind`, or `kind(argument)` if the argument is not empty. -/
def channelText (kind : StreamKind) (argument : String) : String :=
  if argument.isEmpty then kind.name else s!"{kind.name}({argument})"

namespace StreamKey

def text (key : StreamKey) : String :=
  channelText key.kind key.argument

/-- Split `kind(argument)` at its first parenthesis; the argument has lost its blanks.  `none` if
the closing parenthesis does not end the text. -/
def split? (cs : List Char) : Option (List Char × List Char) :=
  match cs.span (· != '(') with
  | (name, []) => some (name, [])
  | (name, _ :: inner) =>
      if inner.getLast? = some ')' then some (name, Text.trimList inner.dropLast) else none

/-- Read `kind` or `kind(argument)`, with blanks allowed around each part. -/
def parse (s : String) : Except StreamError StreamKey :=
  let cs := Text.trimList s.toList
  let malformed := StreamError.malformedKey (String.ofList cs)
  match split? cs with
  | none => .error malformed
  | some (name, argument) =>
      if name.isEmpty || argument.contains '(' || argument.contains ')' then .error malformed
      else
        let name := String.ofList (Text.trimList name)
        match StreamKind.ofName? name with
        | none => .error (.unknownName name)
        | some kind => ofArgument kind (String.ofList argument)

end StreamKey
end Telemetry
