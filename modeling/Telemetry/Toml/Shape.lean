import Telemetry.Stream.Key
import Telemetry.Text.Quoted
import Telemetry.Toml.Document

/-!
# The shape of documents

Reading typed data out of TOML values.  A `ShapeError` says what a document holds in place of what
is wanted.  Fields are looked at in the order of the document; missing ones are reported last.
-/

namespace Telemetry
namespace Toml

/-- What stands where something else is wanted. -/
inductive Found where
  | integer (n : Int)
  | float (x : Float)
  | boolean (b : Bool)
  | string (s : String)
  | sequence
  | map

inductive ShapeError where
  | missingField (name : String)
  | unknownField (name : String) (known : List String)
  | wrongType (found : Found) (wanted : String)
  | wrongValue (found : Found) (wanted : String)
  /-- a sequence that ends too early -/
  | wrongLength (length : Nat) (wanted : String)
  | stream (e : StreamError)

def floatText (x : Float) : String :=
  if x.isNaN then "NaN"
  else if x.isInf then (if x < 0 then "-inf" else "inf")
  else (Decimal.ofDouble x).text

namespace Found

def text : Found → String
  | integer n => s!"integer `{n}`"
  | float x => s!"floating point `{floatText x}`"
  | boolean b => s!"boolean `{b}`"
  | string s => s!"string {Text.quoted s}"
  | sequence => "sequence"
  | map => "map"

def ofValue : Value → Found
  | .string s => string s
  | .integer n => integer n
  | .float x => float x
  | .boolean b => boolean b
  | .datetime => map
  | .array _ | .tables _ => sequence
  | .table _ _ => map

end Found

namespace ShapeError

def message : ShapeError → String
  | missingField name => s!"missing field `{name}`"
  | unknownField name known =>
      let names := String.intercalate ", " (known.map fun k => s!"`{k}`")
      s!"unknown field `{name}`, expected one of {names}"
  | wrongType found wanted => s!"invalid type: {found.text}, expected {wanted}"
  | wrongValue found wanted => s!"invalid value: {found.text}, expected {wanted}"
  | wrongLength length wanted => s!"invalid length {length}, expected {wanted}"
  | stream e => e.message

end ShapeError

/-! ## Reading values -/

/-- The key under which a date or time shows itself where a table is wanted. -/
def datetimeField : String := "$__toml_private_datetime"

/-- A whole number that is not negative; `wanted` names its type. -/
def asUnsigned (wanted : String) : Value → Except ShapeError Nat
  | .integer n =>
      if 0 ≤ n then .ok n.toNat else .error (.wrongValue (.integer n) wanted)
  | v => .error (.wrongType (Found.ofValue v) wanted)

def asString (wanted : String) : Value → Except ShapeError String
  | .string s => .ok s
  | v => .error (.wrongType (Found.ofValue v) wanted)

def asSequence : Value → Except ShapeError (List Value)
  | .array items | .tables items => .ok items
  | v => .error (.wrongType (Found.ofValue v) "a sequence")

def asKey (v : Value) : Except ShapeError StreamKey :=
  match asString "a string" v with
  | .error e => .error e
  | .ok s =>
      match StreamKey.parse s with
      | .ok k => .ok k
      | .error e => .error (.stream e)

def asKeys (v : Value) : Except ShapeError (List StreamKey) :=
  asSequence v >>= fun items => items.mapM asKey

end Toml
end Telemetry
