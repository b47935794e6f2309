import Telemetry.Render

/-!
# Decimal — numbers read back from their written form

The digits of a written number, one behind another, are those of the whole number that it was written
from: `fixedPoint` puts a point among them and loses none (`ofDigitChars_fixedPoint`).  So the text of
a value tells it from every other value of its kind (`Value.text_injective`), and the text of a record
tells it from every other record of its kind (`Record.eq_of_texts`).
-/

namespace Telemetry

namespace Text

theorem ofDigitChars_zeroPadded (width n : Nat) :
    Nat.ofDigitChars 10 (zeroPadded width n) 0 = n := by
  simp [zeroPadded, Nat.ofDigitChars_append]

theorem length_zeroPadded {width n : Nat} (hwidth : 0 < width) (h : n < Nat.pow 10 width) :
    (zeroPadded width n).length = width := by
  have hle : (Nat.toDigits 10 n).length ≤ width :=
    (Nat.length_toDigits_le_iff (by decide) hwidth).2 h
  simp only [zeroPadded, List.length_append, List.length_replicate]
  omega

theorem isDigit_of_mem_zeroPadded {width n : Nat} {c : Char} (h : c ∈ zeroPadded width n) :
    c.isDigit = true := by
  rcases List.mem_append.1 h with hzero | hdigit
  · rw [List.eq_of_mem_replicate hzero]
    rfl
  · exact Nat.isDigit_of_mem_toDigits (by decide) (by decide) hdigit

theorem filter_isDigit_fixedPoint (places n : Nat) :
    (fixedPoint places n).filter Char.isDigit
      = Nat.toDigits 10 (n / Nat.pow 10 places) ++ zeroPadded places (n % Nat.pow 10 places) := by
  have hwhole : (Nat.toDigits 10 (n / Nat.pow 10 places)).filter Char.isDigit
      = Nat.toDigits 10 (n / Nat.pow 10 places) :=
    List.filter_eq_self.2 fun c hc => Nat.isDigit_of_mem_toDigits (by decide) (by decide) hc
  have hfraction : (zeroPadded places (n % Nat.pow 10 places)).filter Char.isDigit
      = zeroPadded places (n % Nat.pow 10 places) :=
    List.filter_eq_self.2 fun c hc => isDigit_of_mem_zeroPadded hc
  rw [fixedPoint, List.filter_append, hwhole, List.filter_cons_of_neg (by decide), hfraction]

/-- The digits of a number with a fraction are those of the whole number it was written from. -/
theorem ofDigitChars_fixedPoint {places : Nat} (hplaces : 0 < places) (n : Nat) :
    Nat.ofDigitChars 10 ((fixedPoint places n).filter Char.isDigit) 0 = n := by
  have hlt : n % Nat.pow 10 places < Nat.pow 10 places :=
    Nat.mod_lt n (Nat.pow_pos (by decide))
  calc Nat.ofDigitChars 10 ((fixedPoint places n).filter Char.isDigit) 0
      = Nat.pow 10 places * (n / Nat.pow 10 places) + n % Nat.pow 10 places := by
        rw [filter_isDigit_fixedPoint, Nat.ofDigitChars_append, Nat.ofDigitChars_ten_toDigits,
          Nat.ofDigitChars_eq_ofDigitChars_zero, ofDigitChars_zeroPadded,
          length_zeroPadded hplaces hlt]
        rfl
    _ = n := Nat.div_add_mod n _

theorem mem_fixedPoint {places n : Nat} {c : Char} (h : c ∈ fixedPoint places n) :
    c.isDigit = true ∨ c = '.' := by
  rcases List.mem_append.1 h with hwhole | hrest
  · exact .inl (Nat.isDigit_of_mem_toDigits (by decide) (by decide) hwhole)
  · rcases List.mem_cons.1 hrest with hpoint | hfraction
    · exact .inr hpoint
    · exact .inl (isDigit_of_mem_zeroPadded hfraction)

theorem toDigits_injective {m n : Nat} (h : Nat.toDigits 10 m = Nat.toDigits 10 n) : m = n := by
  rw [← Nat.ofDigitChars_ten_toDigits (n := m), h, Nat.ofDigitChars_ten_toDigits]

theorem fixedPoint_injective {places m n : Nat} (hplaces : 0 < places)
    (h : fixedPoint places m = fixedPoint places n) : m = n := by
  rw [← ofDigitChars_fixedPoint hplaces m, h, ofDigitChars_fixedPoint hplaces]

end Text

/-! ## Values -/

namespace Fixed

/-- A number is written with a minus sign exactly if it is negative. -/
theorem minus_mem_text (f : Fixed) : '-' ∈ f.text.toList ↔ f.millionths < 0 := by
  have hdigits : '-' ∉ Text.fixedPoint 6 f.millionths.toInt.natAbs := by
    intro hmem
    rcases Text.mem_fixedPoint hmem with hdigit | hpoint
    · exact absurd hdigit (by decide)
    · exact absurd hpoint (by decide)
  by_cases hneg : f.millionths < 0
  · simp [text, hneg]
  · simp [text, hneg, hdigits]

theorem filter_isDigit_text (f : Fixed) : f.text.toList.filter Char.isDigit
    = (Text.fixedPoint 6 f.millionths.toInt.natAbs).filter Char.isDigit := by
  by_cases hneg : f.millionths < 0
  · simp only [text, if_pos hneg, String.toList_ofList]
    exact List.filter_cons_of_neg (by decide)
  · simp only [text, if_neg hneg, String.toList_ofList]

theorem text_injective {f g : Fixed} (h : f.text = g.text) : f = g := by
  have hsign : f.millionths < 0 ↔ g.millionths < 0 := by
    rw [← f.minus_mem_text, h, g.minus_mem_text]
  have hsize : f.millionths.toInt.natAbs = g.millionths.toInt.natAbs := by
    have hplaces : 0 < 6 := by decide
    rw [← Text.ofDigitChars_fixedPoint hplaces f.millionths.toInt.natAbs, ← f.filter_isDigit_text,
      h, g.filter_isDigit_text, Text.ofDigitChars_fixedPoint hplaces]
  -- the sign and the size make the number
  rw [Int64.lt_iff_toInt_lt, Int64.lt_iff_toInt_lt] at hsign
  have hsame : f.millionths.toInt = g.millionths.toInt := by
    simp only [Int64.toInt_zero] at hsign
    omega
  obtain ⟨f⟩ := f
  obtain ⟨g⟩ := g
  exact congrArg Fixed.mk (Int64.toInt_inj.1 hsame)

end Fixed

namespace Value

/-- A value is written with digits, a point and a minus sign. -/
theorem mem_text {v : Value} {c : Char} (h : c ∈ v.text.toList) :
    c.isDigit = true ∨ c = '.' ∨ c = '-' := by
  have hrepr (n : Nat) (hc : c ∈ n.repr.toList) : c.isDigit = true := by
    rw [Nat.repr_eq_ofList_toDigits, String.toList_ofList] at hc
    exact Nat.isDigit_of_mem_toDigits (by decide) (by decide) hc
  cases v with
  | counter64 n => exact .inl (hrepr _ h)
  | counter32 n => exact .inl (hrepr _ h)
  | percent p => exact (Text.mem_fixedPoint (by simpa [text, Percent.text] using h)).imp_right .inl
  | scaled s => exact (Text.mem_fixedPoint (by simpa [text, Scaled.text] using h)).imp_right .inl
  | fixed f =>
      by_cases hneg : f.millionths < 0
      · simp only [text, Fixed.text, if_pos hneg, String.toList_ofList, List.mem_cons] at h
        rcases h with hminus | hdigits
        · exact .inr (.inr hminus)
        · exact (Text.mem_fixedPoint hdigits).imp_right .inl
      · simp only [text, Fixed.text, if_neg hneg, String.toList_ofList] at h
        exact (Text.mem_fixedPoint h).imp_right .inl
  | byte b => exact .inl (hrepr _ h)

/-- Other characters separate the texts of values. -/
theorem notMem_texts {c : Char} (hdigit : ¬c.isDigit = true) (hc : c ≠ '.' ∧ c ≠ '-')
    (vs : List Value) : ∀ x ∈ vs.map fun v => v.text.toList, c ∉ x := by
  intro x hx hmem
  obtain ⟨v, -, rfl⟩ := List.mem_map.1 hx
  rcases mem_text hmem with h | hpoint | hminus
  · exact hdigit h
  · exact hc.1 hpoint
  · exact hc.2 hminus

/-- The text of a value tells it from every other value of its kind. -/
theorem text_injective {v w : Value} (hkind : v.kind = w.kind) (h : v.text = w.text) : v = w := by
  -- values of two kinds are told apart by their kinds
  cases v <;> cases w <;> first | contradiction | skip
  case counter64.counter64 m n =>
    have hsame := Text.toDigits_injective (String.ofList_injective h)
    exact congrArg counter64 (UInt64.toNat_inj.1 hsame)
  case counter32.counter32 m n =>
    have hsame := Text.toDigits_injective (String.ofList_injective h)
    exact congrArg counter32 (UInt32.toNat_inj.1 hsame)
  case percent.percent p q =>
    have hsame := Text.fixedPoint_injective (by decide) (String.ofList_injective h)
    exact congrArg (fun n => percent ⟨n⟩) (UInt16.toNat_inj.1 hsame)
  case scaled.scaled s t =>
    have hsame := Text.fixedPoint_injective (by decide) (String.ofList_injective h)
    exact congrArg (fun n => scaled ⟨n⟩) (UInt16.toNat_inj.1 hsame)
  case fixed.fixed f g => exact congrArg fixed (Fixed.text_injective h)
  case byte.byte a b =>
    have hsame := Text.toDigits_injective (String.ofList_injective h)
    exact congrArg byte (UInt8.toNat_inj.1 hsame)

end Value

/-- The texts of its values tell a record from every other record of its kind. -/
theorem Record.eq_of_texts {a b : Record} (hkind : a.kind = b.kind)
    (h : (a.values.map fun v => v.text.toList) = b.values.map fun v => v.text.toList) : a = b := by
  obtain ⟨kind, vs, hvs⟩ := a
  obtain ⟨kind', ws, hws⟩ := b
  cases hkind
  have hkinds : vs.map Value.kind = ws.map Value.kind := hvs.trans hws.symm
  change (vs.map fun v => v.text.toList) = ws.map fun v => v.text.toList at h
  have hsame : vs = ws := by
    clear hvs hws
    induction vs generalizing ws with
    | nil => simpa using h
    | cons v vs ih =>
        cases ws with
        | nil => simp at h
        | cons w ws =>
            simp only [List.map_cons, List.cons.injEq] at h hkinds
            rw [Value.text_injective hkinds.1 (String.toList_injective h.1), ih ws hkinds.2 h.2]
  cases hsame
  rfl

/-! ## Rendered values -/

theorem toList_renderValues (style : TextStyle) (vs : List Value) :
    (renderValues style vs).toList = vs.flatMap fun v => (v.render style).toList := by
  rw [renderValues]
  induction vs with
  | nil => rfl
  | cons v vs ih => simp [ih]

/-- Every value in an update follows a colon. -/
theorem toList_renderValues_update (vs : List Value) : (renderValues .update vs).toList
    = (vs.map fun v => v.text.toList).flatMap (':' :: ·) := by
  rw [toList_renderValues, List.flatMap_map]
  simp [Value.render]

end Telemetry
