import Mathlib.Algebra.Order.Field.Rat
import Mathlib.Data.List.Basic
import Mathlib.Tactic.FieldSimp
import Mathlib.Tactic.Positivity
import Telemetry.Proofs.Text.Decimal
import Telemetry.Proofs.Text.Separated

/-!
# Numeral — the number that a text stands for

A `Text.Numeral` is a decimal number in writing, and `Numeral.read?` takes a text for a numeral exactly
if the numeral is written so (`Numeral.read?_eq_some_iff`).  The text of a value is a numeral without
superfluous zeros, and it stands for the integer of the value over the scale of its kind: nothing is
rounded (`Value.exists_writes_text`).  So an update text tells a record from every other record of its
kind (`renderValues_exact`).
-/

namespace Telemetry
namespace Text

/-! ## Numerals -/

/-- A decimal number in writing. -/
structure Numeral where
  negative : Bool
  /-- the digits in front of the point -/
  whole : List Char
  /-- the digits behind the point; if there are none, there is no point -/
  fraction : List Char
  whole_ne_nil : whole ≠ []
  isDigit_whole : ∀ c ∈ whole, c.isDigit = true
  isDigit_fraction : ∀ c ∈ fraction, c.isDigit = true
  deriving DecidableEq

namespace Numeral

def unsigned (n : Numeral) : List Char :=
  n.whole ++ (if n.fraction = [] then [] else '.' :: n.fraction)

def chars (n : Numeral) : List Char :=
  if n.negative then '-' :: n.unsigned else n.unsigned

def size (n : Numeral) : ℚ :=
  Nat.ofDigitChars 10 n.whole 0
    + Nat.ofDigitChars 10 n.fraction 0 / 10 ^ n.fraction.length

def value (n : Numeral) : ℚ :=
  if n.negative then -n.size else n.size

/-! ## Reading -/

def ofParts? (negative : Bool) (whole fraction : List Char) : Option Numeral :=
  if h : whole ≠ [] ∧ whole.all Char.isDigit ∧ fraction.all Char.isDigit then
    some ⟨negative, whole, fraction, h.1, List.all_eq_true.1 h.2.1, List.all_eq_true.1 h.2.2⟩
  else none

/-- Digits, and behind a point more of them, but at least one. -/
def readUnsigned? (negative : Bool) (cs : List Char) : Option Numeral :=
  match cs.splitOn '.' with
  | [whole] => ofParts? negative whole []
  | [whole, c :: fraction] => ofParts? negative whole (c :: fraction)
  | _ => none

def read? : List Char → Option Numeral
  | '-' :: cs => readUnsigned? true cs
  | cs => readUnsigned? false cs

variable {n : Numeral} {negative : Bool} {cs whole fraction : List Char}

theorem point_notMem {ds : List Char} (h : ∀ c ∈ ds, c.isDigit = true) : '.' ∉ ds := by
  intro hmem
  exact absurd (h '.' hmem) (by decide)

theorem ofParts?_eq_some_iff : ofParts? negative whole fraction = some n ↔
    n.negative = negative ∧ n.whole = whole ∧ n.fraction = fraction := by
  rw [ofParts?]
  constructor
  · intro h
    split at h
    · cases h
      exact ⟨rfl, rfl, rfl⟩
    · contradiction
  · rintro ⟨rfl, rfl, rfl⟩
    have hparts : n.whole ≠ [] ∧ n.whole.all Char.isDigit ∧ n.fraction.all Char.isDigit :=
      ⟨n.whole_ne_nil, List.all_eq_true.2 n.isDigit_whole, List.all_eq_true.2 n.isDigit_fraction⟩
    rw [dif_pos hparts]

theorem splitOn_unsigned (n : Numeral) : n.unsigned.splitOn '.'
    = if n.fraction = [] then [n.whole] else [n.whole, n.fraction] := by
  have hwhole : '.' ∉ n.whole := point_notMem n.isDigit_whole
  have hfraction : '.' ∉ n.fraction := point_notMem n.isDigit_fraction
  by_cases hnil : n.fraction = []
  · simp only [unsigned, if_pos hnil, List.append_nil]
    exact List.splitOn_eq_singleton hwhole
  · have hparts : ∀ ds ∈ [n.fraction], '.' ∉ ds := by simpa using hfraction
    simp only [unsigned, if_neg hnil]
    simpa using splitOn_append_flatMap hwhole hparts

theorem readUnsigned?_eq_some_iff : readUnsigned? negative cs = some n ↔
    n.negative = negative ∧ n.unsigned = cs := by
  constructor
  · intro h
    -- the parts between the points, put together again
    have hcs : ['.'].intercalate (cs.splitOn '.') = cs := List.intercalate_splitOn '.'
    unfold readUnsigned? at h
    split at h
    next whole hsplit =>
        rcases ofParts?_eq_some_iff.1 h with ⟨hnegative, rfl, hfraction⟩
        rw [hsplit] at hcs
        exact ⟨hnegative, by simpa [unsigned, hfraction] using hcs⟩
    next whole c fraction hsplit =>
        rcases ofParts?_eq_some_iff.1 h with ⟨hnegative, rfl, hfraction⟩
        rw [hsplit] at hcs
        exact ⟨hnegative, by simpa [unsigned, hfraction] using hcs⟩
    · contradiction
  · rintro ⟨rfl, rfl⟩
    rw [readUnsigned?, splitOn_unsigned]
    cases hfraction : n.fraction with
    | nil => exact ofParts?_eq_some_iff.2 ⟨rfl, rfl, hfraction⟩
    | cons c fraction => exact ofParts?_eq_some_iff.2 ⟨rfl, rfl, hfraction⟩

theorem head?_unsigned_ne_minus (n : Numeral) : n.unsigned.head? ≠ some '-' := by
  intro h
  rw [unsigned, List.head?_append_of_ne_nil _ n.whole_ne_nil] at h
  exact absurd (n.isDigit_whole '-' (List.mem_of_head? h)) (by decide)

/-- A text is read as a numeral exactly if the numeral is written so. -/
theorem read?_eq_some_iff : read? cs = some n ↔ n.chars = cs := by
  unfold read?
  split
  next cs =>
      rw [readUnsigned?_eq_some_iff]
      constructor
      · rintro ⟨hnegative, rfl⟩
        simp [chars, hnegative]
      · intro h
        cases hnegative : n.negative with
        | true => simpa [chars, hnegative] using h
        | false =>
            -- an unsigned numeral begins with a digit
            have hhead : n.unsigned.head? = some '-' := by simp_all [chars]
            exact absurd hhead n.head?_unsigned_ne_minus
  next hminus =>
      rw [readUnsigned?_eq_some_iff]
      constructor
      · rintro ⟨hnegative, rfl⟩
        simp [chars, hnegative]
      · intro h
        cases hnegative : n.negative with
        | true => exact absurd (by simp [← h, chars, hnegative]) (hminus n.unsigned)
        | false => simpa [chars, hnegative] using h

/-! ## Writing -/

/-- A numeral writes the integer over the scale with that many digits behind the point. -/
structure Writes (n : Numeral) (integer : ℤ) (scale places : ℕ) : Prop where
  value_eq : n.value = integer / scale
  length_fraction : n.fraction.length = places
  /-- no zero stands in front of another digit -/
  plain : n.whole.head? = some '0' → n.whole = ['0']
  negative_iff : n.negative = true ↔ integer < 0

/-- A number that is not zero does not begin with a zero. -/
theorem toDigits_of_head?_eq_zero {m : ℕ} (h : (Nat.toDigits 10 m).head? = some '0') :
    Nat.toDigits 10 m = ['0'] := by
  induction m using Nat.strong_induction_on with
  | h m ih =>
      rw [Nat.toDigits_eq_if (by decide)] at h ⊢
      split at h
      next hlt =>
          rw [if_pos hlt]
          simpa using h
      next hlt =>
          -- the digits in front of the last one are those of a smaller number, which is not zero
          rw [List.head?_append_of_ne_nil _ Nat.toDigits_ne_nil] at h
          have hzero : Nat.toDigits 10 (m / 10) = ['0'] := ih (m / 10) (by omega) h
          have hvalue : m / 10 = 0 := by
            rw [← Nat.ofDigitChars_ten_toDigits (n := m / 10), hzero]
            rfl
          omega

def ofNat (m : ℕ) : Numeral where
  negative := false
  whole := Nat.toDigits 10 m
  fraction := []
  whole_ne_nil := Nat.toDigits_ne_nil
  isDigit_whole := fun _ => Nat.isDigit_of_mem_toDigits (by decide) (by decide)
  isDigit_fraction := by simp

def ofFixedPoint (negative : Bool) (places m : ℕ) : Numeral where
  negative := negative
  whole := Nat.toDigits 10 (m / Nat.pow 10 places)
  fraction := zeroPadded places (m % Nat.pow 10 places)
  whole_ne_nil := Nat.toDigits_ne_nil
  isDigit_whole := fun _ => Nat.isDigit_of_mem_toDigits (by decide) (by decide)
  isDigit_fraction := fun _ => isDigit_of_mem_zeroPadded

theorem chars_ofNat (m : ℕ) : (ofNat m).chars = Nat.toDigits 10 m := by
  simp [chars, unsigned, ofNat]

theorem writes_ofNat (m : ℕ) : (ofNat m).Writes m 1 0 where
  value_eq := by simp [value, size, ofNat, Nat.ofDigitChars_ten_toDigits]
  length_fraction := rfl
  plain := toDigits_of_head?_eq_zero
  negative_iff := by simp [ofNat]

theorem chars_ofFixedPoint (negative : Bool) (places m : ℕ) : (ofFixedPoint negative places m).chars
    = if negative then '-' :: fixedPoint places m else fixedPoint places m := by
  have hfraction : (ofFixedPoint negative places m).fraction ≠ [] := by
    simp [ofFixedPoint, zeroPadded, Nat.toDigits_ne_nil]
  have hunsigned : (ofFixedPoint negative places m).unsigned = fixedPoint places m := by
    rw [unsigned, if_neg hfraction]
    rfl
  rw [chars, hunsigned]
  rfl

/-- The whole part and the fraction are quotient and remainder by the scale. -/
theorem size_ofFixedPoint {places : ℕ} (hplaces : 0 < places) (negative : Bool) (m : ℕ) :
    (ofFixedPoint negative places m).size = (m : ℚ) / 10 ^ places := by
  have hscale : (0 : ℚ) < 10 ^ places := by positivity
  have hsplit : ((10 ^ places * (m / 10 ^ places) + m % 10 ^ places : ℕ) : ℚ) = m :=
    congrArg _ (Nat.div_add_mod m (10 ^ places))
  have hlength : (zeroPadded places (m % 10 ^ places)).length = places :=
    length_zeroPadded hplaces (Nat.mod_lt m (by positivity))
  calc (ofFixedPoint negative places m).size
      = (m / 10 ^ places : ℕ) + (m % 10 ^ places : ℕ) / 10 ^ places := by
        simp only [size, ofFixedPoint, Nat.pow_eq, Nat.ofDigitChars_ten_toDigits,
          ofDigitChars_zeroPadded, hlength]
    _ = ((10 ^ places * (m / 10 ^ places) + m % 10 ^ places : ℕ) : ℚ) / 10 ^ places := by
        push_cast
        field_simp
    _ = (m : ℚ) / 10 ^ places := by rw [hsplit]

theorem writes_ofFixedPoint (negative : Bool) {places : ℕ} (hplaces : 0 < places) (integer : ℤ)
    (hnegative : negative = true ↔ integer < 0) :
    (ofFixedPoint negative places integer.natAbs).Writes integer (10 ^ places) places where
  value_eq := by
    rw [value, size_ofFixedPoint hplaces]
    have hsize : (integer.natAbs : ℚ) = |(integer : ℚ)| := by
      rw [Nat.cast_natAbs, Int.cast_abs]
    cases hsign : negative with
    | true =>
        have hlt : (integer : ℚ) < 0 := by exact_mod_cast hnegative.1 hsign
        simp [ofFixedPoint, hsize, abs_of_neg hlt, neg_div]
    | false =>
        have hle : (0 : ℚ) ≤ integer := by
          have : ¬integer < 0 := fun h => by simp [hnegative.2 h] at hsign
          exact_mod_cast not_lt.1 this
        simp [ofFixedPoint, hsize, abs_of_nonneg hle]
  length_fraction := length_zeroPadded hplaces (Nat.mod_lt _ (Nat.pow_pos (by decide)))
  plain := toDigits_of_head?_eq_zero
  negative_iff := hnegative

end Numeral
end Text

/-! ## Values -/

namespace FieldKind

/-- What the integer of a value is divided by. -/
def scale : FieldKind → ℕ
  | counter64 | counter32 | byte => 1
  | percent => 10
  | scaled => 100
  | fixed => 1000000

def places : FieldKind → ℕ
  | counter64 | counter32 | byte => 0
  | percent => 1
  | scaled => 2
  | fixed => 6

end FieldKind

namespace Value

def integer : Value → ℤ
  | counter64 n => n.toNat
  | counter32 n => n.toNat
  | percent p => p.tenths.toNat
  | scaled s => s.hundredths.toNat
  | fixed f => f.millionths.toInt
  | byte b => b.toNat

open Text.Numeral in
/-- The text of a value stands for its integer over the scale of its kind. -/
theorem exists_writes_text (v : Value) :
    ∃ n, Text.Numeral.read? v.text.toList = some n ∧ n.Writes v.integer v.kind.scale v.kind.places := by
  have hrepr (m : ℕ) : (ofNat m).chars = m.repr.toList := by
    rw [chars_ofNat, Nat.repr_eq_ofList_toDigits, String.toList_ofList]
  have hpoint (places m : ℕ) : (ofFixedPoint false places m).chars
      = (String.ofList (Text.fixedPoint places m)).toList := by
    simp [chars_ofFixedPoint]
  have hwrites {places : ℕ} (hplaces : 0 < places) (m : ℕ) :
      (ofFixedPoint false places m).Writes m (10 ^ places) places :=
    writes_ofFixedPoint false hplaces m (by simp)
  cases v with
  | counter64 n => exact ⟨_, read?_eq_some_iff.2 (hrepr _), writes_ofNat _⟩
  | counter32 n => exact ⟨_, read?_eq_some_iff.2 (hrepr _), writes_ofNat _⟩
  | percent p =>
      exact ⟨_, read?_eq_some_iff.2 (hpoint 1 _), hwrites Nat.one_pos _⟩
  | scaled s =>
      exact ⟨_, read?_eq_some_iff.2 (hpoint 2 _), hwrites Nat.two_pos _⟩
  | fixed f =>
      have hsign : decide (f.millionths < 0) = true ↔ f.millionths.toInt < 0 := by
        rw [decide_eq_true_iff, Int64.lt_iff_toInt_lt, Int64.toInt_zero]
      refine ⟨_, read?_eq_some_iff.2 ?_, writes_ofFixedPoint _ (Nat.succ_pos 5) _ hsign⟩
      simp [chars_ofFixedPoint, text, Fixed.text, integer]
  | byte b => exact ⟨_, read?_eq_some_iff.2 (hrepr _), writes_ofNat _⟩

end Value

/-! ## Records -/

theorem renderValues_update_injective {a b : Record} (hkind : a.kind = b.kind)
    (h : renderValues .update a.values = renderValues .update b.values) : a = b := by
  have hsplit (r : Record) : (renderValues .update r.values).toList.splitOn ':'
      = [] :: r.values.map fun v => v.text.toList := by
    rw [toList_renderValues_update]
    exact Text.splitOn_append_flatMap (x := []) (by simp)
      (Value.notMem_texts (by decide) (by decide) r.values)
  have hparts := hsplit a
  rw [h, hsplit b, List.cons.injEq] at hparts
  exact Record.eq_of_texts hkind hparts.2.symm

/-- The text of a value is read as the number that is its integer over the scale of its kind, written
with as many digits behind the point as the kind has, without superfluous zeros, and with a minus sign
exactly if the integer is negative.  Updates of two records of one kind are equal exactly if the
records are. -/
theorem renderValues_exact :
    (∀ v : Value, ∃ n, Text.Numeral.read? v.text.toList = some n
      ∧ n.Writes v.integer v.kind.scale v.kind.places)
    ∧ ∀ a b : Record, a.kind = b.kind →
      (renderValues .update a.values = renderValues .update b.values ↔ a = b) := by
  refine ⟨Value.exists_writes_text, ?_⟩
  intro a b hkind
  constructor
  · exact renderValues_update_injective hkind
  · rintro rfl
    rfl

/-- The lowest reading of a sensor is written out in full, and updates differ by a sign alone. -/
theorem renderValues_exact_lowestReading :
    (∃ n, Text.Numeral.read? "-9223372036854.775808".toList = some n
      ∧ n.Writes (-9223372036854775808) 1000000 6)
    ∧ (renderValues .update [.fixed ⟨-500000⟩] = renderValues .update [.fixed ⟨500000⟩]
      ↔ (⟨.sensor, [.fixed ⟨-500000⟩], rfl⟩ : Record) = ⟨.sensor, [.fixed ⟨500000⟩], rfl⟩) := by
  have htext : (Value.fixed ⟨Int64.minValue⟩).text = "-9223372036854.775808" := by decide
  refine ⟨?_, renderValues_exact.2 ⟨.sensor, [.fixed ⟨-500000⟩], rfl⟩
    ⟨.sensor, [.fixed ⟨500000⟩], rfl⟩ rfl⟩
  rw [← htext]
  exact renderValues_exact.1 (.fixed ⟨Int64.minValue⟩)

end Telemetry
