import Telemetry.Text.Column
import Telemetry.Wire.Measurement

/-!
# Render — measurements as text

Two styles: right-aligned columns for people, and the compact form of time-series updates in which
each value follows a colon.
-/

namespace Telemetry

inductive TextStyle where
  /-- a space and a right-aligned column for each value -/
  | columns
  /-- a colon and the plain value for each value -/
  | update
  deriving DecidableEq, Repr

namespace FieldKind

/-- The width of a kind's column: the widest text that a value of the kind has. -/
def columnWidth : FieldKind → Nat
  | counter64 => 20
  | counter32 => 10
  | percent => 5
  | scaled => 6
  | fixed => 14
  | byte => 3

end FieldKind

namespace Value

def render (style : TextStyle) (v : Value) : String :=
  match style with
  | .columns => " " ++ Text.alignRight v.kind.columnWidth v.text
  | .update => ":" ++ v.text

end Value

def renderValues (style : TextStyle) (vs : List Value) : String :=
  String.join (vs.map (Value.render style))

namespace Measurement

/-- The fields of a measurement in wire order. -/
def render (style : TextStyle) (m : Measurement) : String :=
  renderValues style m.record.values

end Measurement
end Telemetry
