/-!
# Numeral — written numbers

Whole numbers with leading zeros, decimal numbers with a fixed count of fraction digits, and
hexadecimal numbers of a fixed count of digits.
-/

namespace Telemetry
namespace Text

/-- Decimal digits of `n`, with zeros in front up to `width` digits. -/
def zeroPadded (width n : Nat) : List Char :=
  let ds := Nat.toDigits 10 n
  List.replicate (width - ds.length) '0' ++ ds

/-- The number `n / 10 ^ places`, written with exactly `places` fraction digits. -/
def fixedPoint (places n : Nat) : List Char :=
  let unit := Nat.pow 10 places
  Nat.toDigits 10 (n / unit) ++ '.' :: zeroPadded places (n % unit)

/-- The last `width` hexadecimal digits of `n`. -/
def hexDigits : (width : Nat) → (n : Nat) → List Char
  | 0, _ => []
  | width + 1, n => hexDigits width (n / 16) ++ [Nat.digitChar (n % 16)]

/-- The value of a hexadecimal digit of either case. -/
def hexValue? (c : Char) : Option Nat :=
  if '0' ≤ c ∧ c ≤ '9' then some (c.toNat - '0'.toNat)
  else if 'a' ≤ c ∧ c ≤ 'f' then some (c.toNat - 'a'.toNat + 10)
  else if 'A' ≤ c ∧ c ≤ 'F' then some (c.toNat - 'A'.toNat + 10)
  else none

end Text
end Telemetry
