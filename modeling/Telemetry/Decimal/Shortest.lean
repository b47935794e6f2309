/-!
# Shortest decimals — doubles as decimal text

`Decimal.ofDouble` finds the decimal number with the fewest digits that lies in the interval of real
numbers rounding to a given double, and of those the one nearest to the double.  `Decimal.text`
writes a decimal number without an exponent and with at least one fraction digit.
`Decimal.toDouble` reads a decimal number back.
-/

namespace Telemetry

/-- The number `digits * 10 ^ exponent`, negative if so marked. -/
structure Decimal where
  negative : Bool
  digits : Nat
  exponent : Int
  deriving DecidableEq, Repr

namespace Decimal

/-! ## From doubles -/

/-- The numerators, over one denominator, of a double's size and of the ends of the interval of real
numbers that round to it; the ends belong to the interval if `closed`. -/
structure Interval where
  low : Nat
  value : Nat
  high : Nat
  denominator : Nat
  closed : Bool
  deriving Repr

/-- One more than the greatest fraction field. -/
def fractionLimit : Nat := 0x10000000000000

/-- One more than the greatest exponent field. -/
def exponentLimit : Nat := 0x800

/-- The interval of a finite double, from its exponent field and its fraction field. -/
def Interval.ofFields (biased fraction : Nat) : Interval :=
  let significand := if biased = 0 then fraction else fraction + fractionLimit
  -- below a power of two the doubles lie twice as dense
  let below := if fraction = 0 ∧ 1 < biased then 1 else 2
  let shift := max biased 1
  -- the size is `4 * significand * 2 ^ (shift - 1077)`
  let up := Nat.pow 2 (shift - 1077)
  let down := Nat.pow 2 (1077 - shift)
  { low := (4 * significand - below) * up
    value := 4 * significand * up
    high := (4 * significand + 2) * up
    denominator := down
    closed := significand % 2 == 0 }

/-- The multiple of `10 ^ power` in the interval that is nearest to the value; of two that are equally
near, the larger one. -/
def Interval.multiple? (i : Interval) (power : Int) : Option Nat :=
  let scale := Nat.pow 10 (-power).toNat
  let unit := i.denominator * Nat.pow 10 power.toNat
  let inside (j : Nat) : Bool :=
    if i.closed then i.low * scale ≤ j * unit && j * unit ≤ i.high * scale
    else i.low * scale < j * unit && j * unit < i.high * scale
  -- the two neighbours of the value on this grid
  let j := i.value * scale / unit
  let fromBelow := i.value * scale - j * unit
  let fromAbove := (j + 1) * unit - i.value * scale
  match inside j, inside (j + 1) with
  | true, true => some (if fromBelow < fromAbove then j else j + 1)
  | true, false => some j
  | false, true => some (j + 1)
  | false, false => none

/-- The first multiple found on the grids `10 ^ power`, `10 ^ (power - 1)`, … -/
def Interval.coarsest (i : Interval) : (fuel : Nat) → (power : Int) → Nat × Int
  | 0, power => (0, power)
  | fuel + 1, power =>
      match i.multiple? power with
      | some j => (j, power)
      | none => i.coarsest fuel (power - 1)

def ofDouble (x : Float) : Decimal :=
  let bits := x.toBits.toNat
  let negative := bits / fractionLimit / exponentLimit == 1
  let biased := bits / fractionLimit % exponentLimit
  let fraction := bits % fractionLimit
  if biased = 0 ∧ fraction = 0 then ⟨negative, 0, 0⟩
  else
    let (digits, exponent) := (Interval.ofFields biased fraction).coarsest 660 309
    ⟨negative, digits, exponent⟩

/-! ## Text -/

/-- The digits with a point, and with a zero behind the point if the number is whole. -/
def text (d : Decimal) : String :=
  let ds := Nat.toDigits 10 d.digits
  let sign := if d.negative then ['-'] else []
  let body :=
    if 0 ≤ d.exponent then ds ++ List.replicate d.exponent.toNat '0' ++ ['.', '0']
    else
      let places := (-d.exponent).toNat
      let ds := List.replicate (places + 1 - ds.length) '0' ++ ds
      ds.take (ds.length - places) ++ '.' :: ds.drop (ds.length - places)
  String.ofList (sign ++ body)

/-! ## To doubles -/

/-- The double nearest to a decimal number; beyond the range of doubles an infinity. -/
def toDouble (d : Decimal) : Float :=
  let length : Int := (Nat.toDigits 10 d.digits).length
  let size : Float :=
    if d.digits = 0 then 0
    -- far outside the range of doubles the digits do not matter
    else if 400 < d.exponent + length then Float.ofBits 0x7FF0000000000000
    else if d.exponent + length < -400 then 0
    else Float.ofScientific d.digits (d.exponent < 0) d.exponent.natAbs
  if d.negative then -size else size

end Decimal
end Telemetry
