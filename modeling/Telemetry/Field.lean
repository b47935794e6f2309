import Telemetry.Text.Column
import Telemetry.Text.Numeral

/-!
# Field — the primitive encodings of a measurement

Every field of a record is one of six fixed-width integers.  Decimal measurements travel as scaled
integers; the raw integer is kept, so a decoded value equals the encoded one.
-/

namespace Telemetry

/-! ## Kinds -/

inductive FieldKind where
  | counter64
  | counter32
  | percent
  | scaled
  | fixed
  | byte
  deriving DecidableEq, Repr

namespace FieldKind

def size : FieldKind → Nat
  | counter64 | fixed => 8
  | counter32 => 4
  | percent | scaled => 2
  | byte => 1

theorem size_pos (k : FieldKind) : 0 < k.size := by
  cases k <;> decide

def totalSize (ks : List FieldKind) : Nat :=
  ks.foldr (fun k n => k.size + n) 0

def name : FieldKind → String
  | counter64 => "Counter64"
  | counter32 => "Counter32"
  | percent => "Percent"
  | scaled => "Scaled"
  | fixed => "Fixed"
  | byte => "Byte"

end FieldKind

/-! ## Scaled numbers -/

/-- A percentage, kept in tenths. -/
structure Percent where
  tenths : UInt16
  deriving DecidableEq, Repr

/-- A decimal number, kept in hundredths. -/
structure Scaled where
  hundredths : UInt16
  deriving DecidableEq, Repr

/-- A signed decimal number, kept in millionths. -/
structure Fixed where
  millionths : Int64
  deriving DecidableEq, Repr

namespace Percent

/-- The nearest tenth, halves away from zero, held within the 16-bit range; no number is zero. -/
def ofFloat (x : Float) : Percent :=
  ⟨(x * 10).round.toUInt16⟩

def toFloat (p : Percent) : Float :=
  p.tenths.toFloat / 10

def text (p : Percent) : String :=
  String.ofList (Text.fixedPoint 1 p.tenths.toNat)

end Percent

namespace Scaled

/-- The nearest hundredth, halves away from zero, held within the 16-bit range; no number is
zero. -/
def ofFloat (x : Float) : Scaled :=
  ⟨(x * 100).round.toUInt16⟩

def toFloat (s : Scaled) : Float :=
  s.hundredths.toFloat / 100

def text (s : Scaled) : String :=
  String.ofList (Text.fixedPoint 2 s.hundredths.toNat)

end Scaled

namespace Fixed

/-- The nearest millionth, halves away from zero, held within the signed 64-bit range; no number
is zero. -/
def ofFloat (x : Float) : Fixed :=
  ⟨(x * 1000000).round.toInt64⟩

def toFloat (f : Fixed) : Float :=
  f.millionths.toFloat / 1000000

/-- A minus sign if the number is negative, then its size. -/
def text (f : Fixed) : String :=
  let digits := Text.fixedPoint 6 f.millionths.toInt.natAbs
  String.ofList (if f.millionths < 0 then '-' :: digits else digits)

end Fixed

/-! ## Values -/

inductive Value where
  | counter64 (n : UInt64)
  | counter32 (n : UInt32)
  | percent (p : Percent)
  | scaled (s : Scaled)
  | fixed (f : Fixed)
  | byte (b : UInt8)
  deriving DecidableEq, Repr

namespace Value

def kind : Value → FieldKind
  | counter64 _ => .counter64
  | counter32 _ => .counter32
  | percent _ => .percent
  | scaled _ => .scaled
  | fixed _ => .fixed
  | byte _ => .byte

def zero : FieldKind → Value
  | .counter64 => counter64 0
  | .counter32 => counter32 0
  | .percent => percent ⟨0⟩
  | .scaled => scaled ⟨0⟩
  | .fixed => fixed ⟨0⟩
  | .byte => byte 0

@[simp] theorem kind_zero (k : FieldKind) : (zero k).kind = k := by
  cases k <;> rfl

/-- Whole numbers in plain decimal; scaled numbers with one, two or six fraction digits. -/
def text : Value → String
  | counter64 n => n.toNat.repr
  | counter32 n => n.toNat.repr
  | percent p => p.text
  | scaled s => s.text
  | fixed f => f.text
  | byte b => b.toNat.repr

/-- The number meant, for the kinds that are scaled. -/
def toFloat? : Value → Option Float
  | percent p => some p.toFloat
  | scaled s => some s.toFloat
  | fixed f => some f.toFloat
  | _ => none

def ofFloat? (kind : FieldKind) (x : Float) : Option Value :=
  match kind with
  | .percent => some (percent (Percent.ofFloat x))
  | .scaled => some (scaled (Scaled.ofFloat x))
  | .fixed => some (fixed (Fixed.ofFloat x))
  | _ => none

/-- The text in a column: scaled numbers are laid out as words, the others as whole numbers. -/
def layOut (l : Text.Layout) (v : Value) : String :=
  match v with
  | percent _ | scaled _ | fixed _ => l.word v.text
  | _ => l.number v.text

end Value
end Telemetry
