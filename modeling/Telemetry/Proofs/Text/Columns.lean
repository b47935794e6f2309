import Mathlib.Algebra.Order.Ring.Nat
import Mathlib.Tactic.NormNum.Basic
import Mathlib.Tactic.Positivity
import Telemetry.Proofs.Text.Decimal

/-!
# Columns — rows of values under each other

A row gives each value a space and a column, in which the text of the value stands on the right.  A
column is never too narrow for a counter, a byte or a scaled number, but it is for percentages from
1000.0 on and for fixed numbers of more than seven digits, sign included, in front of the point
(`Value.length_text_le_iff`).  A row of narrow values has the width of its columns, and only such a row
has; each value is then found at the offset that the kind of the record gives (`renderValues_columns`).
-/

namespace Telemetry

/-! ## Widths of texts -/

namespace Text

theorem length_fixedPoint {places : ℕ} (hplaces : 0 < places) (n : ℕ) :
    (fixedPoint places n).length = (Nat.toDigits 10 (n / 10 ^ places)).length + (1 + places) := by
  have hfraction : (zeroPadded places (n % 10 ^ places)).length = places :=
    length_zeroPadded hplaces (Nat.mod_lt n (by positivity))
  have hsplit : (fixedPoint places n).length
      = (Nat.toDigits 10 (n / 10 ^ places)).length
        + ((zeroPadded places (n % 10 ^ places)).length + 1) := by
    rw [fixedPoint, List.length_append, List.length_cons]
    rfl
  omega

/-- Digits in front of the point are as many as the number takes, and behind it always the same. -/
theorem length_fixedPoint_le_iff {places whole : ℕ} (hplaces : 0 < places) (hwhole : 0 < whole)
    (n : ℕ) : (fixedPoint places n).length ≤ whole + (1 + places) ↔ n < 10 ^ whole * 10 ^ places := by
  have hdigits : (Nat.toDigits 10 (n / 10 ^ places)).length ≤ whole ↔ n / 10 ^ places < 10 ^ whole :=
    Nat.length_toDigits_le_iff (by decide) hwhole
  have hscale : n / 10 ^ places < 10 ^ whole ↔ n < 10 ^ whole * 10 ^ places :=
    Nat.div_lt_iff_lt_mul (by positivity)
  rw [length_fixedPoint hplaces, Nat.add_le_add_iff_right, hdigits, hscale]

theorem length_repr_le {n width : ℕ} (hwidth : 0 < width) (h : n < 10 ^ width) :
    n.repr.length ≤ width := by
  have hdigits : (Nat.toDigits 10 n).length ≤ width :=
    (Nat.length_toDigits_le_iff (by decide) hwidth).2 h
  simpa [Nat.repr_eq_ofList_toDigits] using hdigits

end Text

namespace Value

/-- A number that its column is wide enough for. -/
def Narrow : Value → Prop
  | percent p => p.tenths.toNat < 10000
  | fixed f => -1000000000000 < f.millionths.toInt ∧ f.millionths.toInt < 10000000000000
  | _ => True

instance : DecidablePred Narrow
  | percent _ => inferInstanceAs (Decidable (_ < _))
  | fixed _ => inferInstanceAs (Decidable (_ ∧ _))
  | counter64 _ | counter32 _ | scaled _ | byte _ => inferInstanceAs (Decidable True)

theorem length_text_fixed (f : Fixed) : (fixed f).text.length
    = (if f.millionths.toInt < 0 then 1 else 0)
      + (Text.fixedPoint 6 f.millionths.toInt.natAbs).length := by
  have hsign : f.millionths < 0 ↔ f.millionths.toInt < 0 := by
    rw [Int64.lt_iff_toInt_lt, Int64.toInt_zero]
  by_cases hneg : f.millionths.toInt < 0
  · rw [text, Fixed.text, if_pos (hsign.2 hneg), if_pos hneg, String.length_ofList, List.length_cons,
      Nat.add_comm]
  · rw [text, Fixed.text, if_neg (mt hsign.1 hneg), if_neg hneg, String.length_ofList, Nat.zero_add]

/-- The text of a value is no wider than its column exactly if the value is narrow. -/
theorem length_text_le_iff (v : Value) : v.text.length ≤ v.kind.columnWidth ↔ v.Narrow := by
  cases v with
  | counter64 n =>
      have hlt : n.toNat < 10 ^ 20 := lt_trans n.toNat_lt (by decide)
      have hle : n.toNat.repr.length ≤ 20 := Text.length_repr_le (by decide) hlt
      exact iff_of_true hle trivial
  | counter32 n =>
      have hlt : n.toNat < 10 ^ 10 := lt_trans n.toNat_lt (by decide)
      have hle : n.toNat.repr.length ≤ 10 := Text.length_repr_le (by decide) hlt
      exact iff_of_true hle trivial
  | byte b =>
      have hlt : b.toNat < 10 ^ 3 := lt_trans b.toNat_lt (by decide)
      have hle : b.toNat.repr.length ≤ 3 := Text.length_repr_le (by decide) hlt
      exact iff_of_true hle trivial
  | percent p =>
      -- three digits, a point and a digit
      have hwidth := Text.length_fixedPoint_le_iff Nat.one_pos (Nat.succ_pos 2) p.tenths.toNat
      simpa [text, Percent.text, kind, FieldKind.columnWidth, Narrow] using hwidth
  | scaled s =>
      -- three digits, a point and two digits
      have hwidth := Text.length_fixedPoint_le_iff Nat.two_pos (Nat.succ_pos 2) s.hundredths.toNat
      have hlt : s.hundredths.toNat < 10 ^ 3 * 10 ^ 2 := lt_trans s.hundredths.toNat_lt (by decide)
      have hle : (scaled s).text.length ≤ 6 := by simpa [text, Scaled.text] using hwidth.2 hlt
      exact iff_of_true hle trivial
  | fixed f =>
      -- a minus sign takes the place of a digit
      have hnegative := Text.length_fixedPoint_le_iff (Nat.succ_pos 5) (Nat.succ_pos 5)
        f.millionths.toInt.natAbs
      have hpositive := Text.length_fixedPoint_le_iff (Nat.succ_pos 5) (Nat.succ_pos 6)
        f.millionths.toInt.natAbs
      simp only [length_text_fixed, kind, FieldKind.columnWidth, Narrow]
      norm_num at hnegative hpositive
      split <;> omega

/-! ## Rows -/

/-- A space and a column with the text of the value on the right. -/
def cell (v : Value) : List Char :=
  ' ' :: (Text.spaces (v.kind.columnWidth - v.text.length) ++ v.text.toList)

theorem toList_render_columns (v : Value) : (v.render .columns).toList = v.cell := by
  simp [render, cell, Text.alignRight, Text.padTo, String.length_toList]

end Value

def rowWidth (ks : List FieldKind) : ℕ :=
  (ks.map fun k => 1 + k.columnWidth).sum

/-- The characters in front of the column of a field. -/
def StreamKind.columnOffset (k : StreamKind) (field : ℕ) : ℕ :=
  rowWidth (k.shape.take field)

namespace Value

theorem length_cell (v : Value) : v.cell.length = 1 + max v.kind.columnWidth v.text.length := by
  have htext : v.text.toList.length = v.text.length := String.length_toList
  simp only [cell, Text.spaces, List.length_cons, List.length_append, List.length_replicate, htext]
  omega

/-- A value keeps to its column exactly if it is narrow. -/
theorem length_cell_eq_iff (v : Value) : v.cell.length = 1 + v.kind.columnWidth ↔ v.Narrow := by
  rw [length_cell, ← length_text_le_iff]
  omega

end Value

theorem toList_renderValues_columns (vs : List Value) :
    (renderValues .columns vs).toList = vs.flatMap Value.cell := by
  rw [toList_renderValues]
  simp only [Value.toList_render_columns]

theorem length_renderValues_columns (vs : List Value) :
    (renderValues .columns vs).length = (vs.map fun v => v.cell.length).sum := by
  rw [← String.length_toList, toList_renderValues_columns, List.length_flatMap]

/-- Values never take less than their columns, and exactly these only if all of them are narrow. -/
theorem length_renderValues_eq_iff (vs : List Value) :
    (renderValues .columns vs).length = rowWidth (vs.map Value.kind) ↔ ∀ v ∈ vs, v.Narrow := by
  rw [length_renderValues_columns]
  induction vs with
  | nil => simp [rowWidth]
  | cons v vs ih =>
      have hcell : 1 + v.kind.columnWidth ≤ v.cell.length := by
        rw [Value.length_cell]
        omega
      have hrest : rowWidth (vs.map Value.kind) ≤ (vs.map fun v => v.cell.length).sum := by
        rw [rowWidth, List.map_map]
        apply List.sum_le_sum
        intro w _
        simp only [Function.comp_apply, Value.length_cell]
        omega
      have hcons : rowWidth ((v :: vs).map Value.kind)
          = 1 + v.kind.columnWidth + rowWidth (vs.map Value.kind) := by
        simp [rowWidth]
      rw [hcons, List.map_cons, List.sum_cons, List.forall_mem_cons, ← ih,
        ← Value.length_cell_eq_iff]
      omega

/-- In a row of narrow values, what stands in front of a value are the columns of those before it. -/
theorem take_drop_flatMap_cell {vs : List Value} (hvs : ∀ v ∈ vs, v.Narrow) {i : ℕ} {v : Value}
    (hv : vs[i]? = some v) :
    ((vs.flatMap Value.cell).drop (rowWidth ((vs.map Value.kind).take i))).take
      (1 + v.kind.columnWidth) = v.cell := by
  induction vs generalizing i with
  | nil => simp at hv
  | cons w vs ih =>
      rw [List.forall_mem_cons] at hvs
      have hwidth : w.cell.length = 1 + w.kind.columnWidth := w.length_cell_eq_iff.2 hvs.1
      cases i with
      | zero =>
          have hsame : w = v := by simpa using hv
          subst hsame
          simp [rowWidth, ← hwidth]
      | succ i =>
          have hfront : rowWidth (((w :: vs).map Value.kind).take (i + 1))
              = w.cell.length + rowWidth ((vs.map Value.kind).take i) := by
            simp [rowWidth, hwidth]
          rw [hfront, List.flatMap_cons, ← List.drop_drop, List.drop_left]
          exact ih hvs.2 (by simpa using hv)

/-- A row is a cell for each value, with the text of the value on the right.  A cell has the width of
its column exactly if the value is narrow, and a row has the width of its columns exactly if all values
are.  Then the values of a record stand where the kind of the record says, field by field. -/
theorem renderValues_columns (vs : List Value) :
    (renderValues .columns vs).toList = vs.flatMap Value.cell
    ∧ (∀ v ∈ vs, v.cell.length = 1 + v.kind.columnWidth ↔ v.Narrow)
    ∧ ((renderValues .columns vs).length = rowWidth (vs.map Value.kind) ↔ ∀ v ∈ vs, v.Narrow)
    ∧ ∀ k : StreamKind, vs.map Value.kind = k.shape → (∀ v ∈ vs, v.Narrow) →
      ∀ field v, vs[field]? = some v →
        ((renderValues .columns vs).toList.drop (k.columnOffset field)).take
          (1 + v.kind.columnWidth) = v.cell := by
  refine ⟨toList_renderValues_columns vs, fun v _ => v.length_cell_eq_iff,
    length_renderValues_eq_iff vs, ?_⟩
  intro k hk hnarrow field v hv
  rw [toList_renderValues_columns, StreamKind.columnOffset, ← hk]
  exact take_drop_flatMap_cell hnarrow hv

/-- The third of five shares stands behind twelve characters, also next to the widest narrow one. -/
theorem renderValues_columns_thirdShare :
    (∀ v ∈ [.percent ⟨9999⟩, .percent ⟨0⟩, .percent ⟨123⟩, .percent ⟨456⟩, .percent ⟨421⟩],
      Value.Narrow v)
    ∧ ((renderValues .columns [.percent ⟨9999⟩, .percent ⟨0⟩, .percent ⟨123⟩, .percent ⟨456⟩,
        .percent ⟨421⟩]).toList.drop (StreamKind.cpu.columnOffset 2)).take (1 + 5)
      = "  12.3".toList := by
  have hnarrow : ∀ v ∈ [.percent ⟨9999⟩, .percent ⟨0⟩, .percent ⟨123⟩, .percent ⟨456⟩,
      .percent ⟨421⟩], Value.Narrow v := by decide
  have hcell : (Value.percent ⟨123⟩).cell = "  12.3".toList := by decide
  refine ⟨hnarrow, ?_⟩
  rw [← hcell]
  exact (renderValues_columns [.percent ⟨9999⟩, .percent ⟨0⟩, .percent ⟨123⟩, .percent ⟨456⟩,
    .percent ⟨421⟩]).2.2.2 .cpu rfl hnarrow 2 (.percent ⟨123⟩) rfl

/-- The highest percentage is wider than its column, and so is the lowest fixed number. -/
theorem not_columns_of_widest :
    (renderValues .columns [.percent ⟨65535⟩, .percent ⟨123⟩]).length
      ≠ rowWidth [.percent, .percent]
    ∧ (renderValues .columns [.fixed ⟨Int64.minValue⟩]).length ≠ rowWidth [.fixed] := by
  decide

end Telemetry
