import Mathlib.Logic.ExistsUnique
import Telemetry.Proofs.Wire.Decoding

/-!
# Records — typed fields and lists of values

A `Row` stores one field for each kind of a shape, every one at its own type.  `Row.ofValues` takes
the fields off a list of values one after another, while `Record.ofValues` compares the kinds of the
whole list; they give the same (`Row.ofValues_map_record`), and each record is one row
(`Record.existsUnique_row`).  So what holds of lists of values holds of typed fields
(`Record.ofValues_correspondence`).
-/

namespace Telemetry

/-! ## Stored fields -/

namespace FieldKind

def Stored : FieldKind → Type
  | counter64 => UInt64
  | counter32 => UInt32
  | percent => Percent
  | scaled => Scaled
  | fixed => Fixed
  | byte => UInt8

def toValue : (k : FieldKind) → k.Stored → Value
  | counter64, n => .counter64 n
  | counter32, n => .counter32 n
  | percent, p => .percent p
  | scaled, s => .scaled s
  | fixed, f => .fixed f
  | byte, b => .byte b

def ofValue? : (k : FieldKind) → Value → Option k.Stored
  | counter64, .counter64 n => some n
  | counter32, .counter32 n => some n
  | percent, .percent p => some p
  | scaled, .scaled s => some s
  | fixed, .fixed f => some f
  | byte, .byte b => some b
  | _, _ => none

variable {k : FieldKind}

@[simp] theorem kind_toValue (x : k.Stored) : (k.toValue x).kind = k := by
  cases k <;> rfl

@[simp] theorem ofValue?_toValue (x : k.Stored) : k.ofValue? (k.toValue x) = some x := by
  cases k <;> rfl

theorem ofValue?_of_kind {v : Value} (h : v.kind = k) :
    ∃ x, k.ofValue? v = some x ∧ k.toValue x = v := by
  subst h
  cases v <;> exact ⟨_, rfl, rfl⟩

theorem ofValue?_of_kind_ne {v : Value} (h : v.kind ≠ k) : k.ofValue? v = none := by
  cases k <;> cases v <;> first | rfl | exact absurd rfl h

theorem toValue_injective {x y : k.Stored} (h : k.toValue x = k.toValue y) : x = y := by
  have hread : some x = some y := by
    rw [← ofValue?_toValue x, h, ofValue?_toValue]
  exact Option.some.inj hread

end FieldKind

/-! ## The first difference -/

/-- The kinds differ at a position, and nowhere before it. -/
structure FirstDifference (ks : List FieldKind) (vs : List Value) (i : Nat)
    (expected actual : FieldKind) : Prop where
  inShape : ks[i]? = some expected
  inValues : (vs.map Value.kind)[i]? = some actual
  differ : actual ≠ expected
  before : ∀ j < i, (vs.map Value.kind)[j]? = ks[j]?

namespace Record

variable {ks : List FieldKind} {vs : List Value} {i : Nat} {expected actual : FieldKind}

theorem of_mismatch?_cons {k : FieldKind} {v : Value}
    (h : mismatch? (k :: ks) (v :: vs) = some (i, expected, actual)) :
    (v.kind = k ∧ ∃ j, i = j + 1 ∧ mismatch? ks vs = some (j, expected, actual))
      ∨ (v.kind ≠ k ∧ i = 0 ∧ expected = k ∧ actual = v.kind) := by
  rw [mismatch?] at h
  split at h
  next hkind =>
      rcases Option.map_eq_some_iff.1 h with ⟨⟨j, e, a⟩, htail, heq⟩
      cases heq
      exact .inl ⟨hkind, j, rfl, htail⟩
  next hkind =>
      cases h
      exact .inr ⟨hkind, rfl, rfl, rfl⟩

theorem firstDifference_of_mismatch? (h : mismatch? ks vs = some (i, expected, actual)) :
    FirstDifference ks vs i expected actual := by
  induction ks generalizing vs i with
  | nil =>
      simp [mismatch?] at h
  | cons k ks ih =>
      cases vs with
      | nil =>
          simp [mismatch?] at h
      | cons v vs =>
          rcases of_mismatch?_cons h with ⟨hkind, j, rfl, htail⟩ | ⟨hkind, rfl, rfl, rfl⟩
          · have hrest := ih htail
            refine ⟨hrest.inShape, hrest.inValues, hrest.differ, ?_⟩
            intro j' hj'
            cases j' with
            | zero => simp [hkind]
            | succ j' => exact hrest.before j' (Nat.lt_of_succ_lt_succ hj')
          · exact ⟨rfl, rfl, hkind, fun j hj => absurd hj (Nat.not_lt_zero j)⟩

end Record

/-! ## Rows -/

/-- One stored field for each kind, in order. -/
inductive Row : List FieldKind → Type where
  | nil : Row []
  | cons {k : FieldKind} {ks : List FieldKind} (field : k.Stored) (rest : Row ks) : Row (k :: ks)

namespace Row

variable {t : StreamKind} {ks : List FieldKind} {vs : List Value} {i : Nat}

def values : {ks : List FieldKind} → Row ks → List Value
  | [], .nil => []
  | k :: _, .cons field rest => k.toValue field :: rest.values

/-- Take the fields off the values, of which the first stands at position `i`. -/
def take (t : StreamKind) :
    (ks : List FieldKind) → Nat → List Value → Except StreamError (Row ks)
  | [], _, _ => .ok .nil
  | _ :: _, _, [] => .error (.shapeMismatch t t.shape.length 0)
  | k :: ks, i, v :: vs =>
      match k.ofValue? v with
      | none => .error (.kindMismatch t i k v.kind)
      | some field =>
          match take t ks (i + 1) vs with
          | .error e => .error e
          | .ok rest => .ok (.cons field rest)

/-- The length is compared once, before the walk. -/
def ofValues (t : StreamKind) (vs : List Value) : Except StreamError (Row t.shape) :=
  if vs.length = t.shape.length then take t t.shape 0 vs
  else .error (.shapeMismatch t t.shape.length vs.length)

theorem map_kind_values (row : Row ks) : row.values.map Value.kind = ks := by
  induction row with
  | nil => rfl
  | cons field rest ih => rw [values, List.map_cons, FieldKind.kind_toValue, ih]

theorem values_injective {row row' : Row ks} (h : row.values = row'.values) : row = row' := by
  induction row with
  | nil =>
      cases row'
      rfl
  | cons field rest ih =>
      cases row' with
      | cons field' rest' =>
          rcases List.cons.inj h with ⟨hfield, hrest⟩
          rw [FieldKind.toValue_injective hfield, ih hrest]

def record (t : StreamKind) (row : Row t.shape) : Record where
  kind := t
  values := row.values
  shaped := row.map_kind_values

theorem record_eq_iff {r : Record} {row : Row r.kind.shape} :
    record r.kind row = r ↔ row.values = r.values := by
  cases r with
  | mk kind values shaped => simp [record]

/-! ## The walk -/

theorem take_of_shaped (h : vs.map Value.kind = ks) :
    ∃ row, take t ks i vs = .ok row ∧ row.values = vs := by
  induction ks generalizing vs i with
  | nil =>
      refine ⟨.nil, rfl, ?_⟩
      exact (List.map_eq_nil_iff.1 h).symm
  | cons k ks ih =>
      cases vs with
      | nil => contradiction
      | cons v vs =>
          rcases List.cons.inj h with ⟨hkind, hkinds⟩
          rcases FieldKind.ofValue?_of_kind hkind with ⟨field, hfield, hvalue⟩
          rcases ih (i := i + 1) hkinds with ⟨rest, hrest, hvalues⟩
          refine ⟨.cons field rest, ?_, ?_⟩
          · simp only [take, hfield, hrest]
          · rw [values, hvalue, hvalues]

theorem take_of_mismatch? {j : Nat} {expected actual : FieldKind}
    (h : Record.mismatch? ks vs = some (j, expected, actual)) :
    take t ks i vs = .error (.kindMismatch t (i + j) expected actual) := by
  induction ks generalizing vs i j with
  | nil =>
      simp [Record.mismatch?] at h
  | cons k ks ih =>
      cases vs with
      | nil =>
          simp [Record.mismatch?] at h
      | cons v vs =>
          rcases Record.of_mismatch?_cons h with ⟨hkind, j, rfl, htail⟩ | ⟨hkind, rfl, rfl, rfl⟩
          · rcases FieldKind.ofValue?_of_kind hkind with ⟨field, hfield, -⟩
            have hshift : i + 1 + j = i + (j + 1) := by omega
            simp only [take, hfield, ih htail, hshift]
          · simp only [take, FieldKind.ofValue?_of_kind_ne hkind, Nat.add_zero]

/-- Taking the fields off one after another and comparing the kinds first give the same. -/
theorem ofValues_map_record (t : StreamKind) (vs : List Value) :
    (ofValues t vs).map (record t) = Record.ofValues t vs := by
  rw [ofValues, Record.ofValues]
  by_cases hlen : vs.length = t.shape.length
  · rw [if_pos hlen, dif_pos hlen]
    split
    next hnone =>
        have hkinds := Record.map_kind_of_mismatch?_eq_none hlen hnone
        rcases take_of_shaped (t := t) (i := 0) hkinds with ⟨row, htake, hvalues⟩
        rw [htake]
        cases hvalues
        rfl
    next index expected actual hsome =>
        rw [take_of_mismatch? hsome, Nat.zero_add]
        rfl
  · rw [if_neg hlen, dif_neg hlen]
    rfl

end Row

namespace Record

theorem existsUnique_row (r : Record) : ∃! row, Row.record r.kind row = r := by
  rcases Row.take_of_shaped (t := r.kind) (i := 0) r.shaped with ⟨row, -, hvalues⟩
  refine ⟨row, Row.record_eq_iff.2 hvalues, ?_⟩
  intro row' hrow'
  exact Row.values_injective ((Row.record_eq_iff.1 hrow').trans hvalues.symm)

theorem exists_ofValues_iff {t : StreamKind} {vs : List Value} :
    (∃ r, ofValues t vs = .ok r) ↔ vs.map Value.kind = t.shape := by
  constructor
  · rintro ⟨r, h⟩
    rcases of_ofValues h with ⟨rfl, rfl⟩
    exact r.shaped
  · intro h
    exact ⟨⟨t, vs, h⟩, ofValues_values ⟨t, vs, h⟩⟩

/-- A list of values makes a record of a kind just when its kinds are the shape of that kind.  The
record holds those values, and any other list is answered with the lengths if they differ, else with
the first position where the kinds do.  Every record is made from its own kind and values, and is one
row of fields, each stored at the type of its position. -/
theorem ofValues_correspondence :
    (∀ t vs,
      ((∃ r, ofValues t vs = .ok r) ↔ vs.map Value.kind = t.shape)
      ∧ (Row.ofValues t vs).map (Row.record t) = ofValues t vs
      ∧ match ofValues t vs with
        | .ok r => r.kind = t ∧ r.values = vs
        | .error e =>
            if vs.length = t.shape.length then
              ∃ i expected actual, FirstDifference t.shape vs i expected actual
                ∧ e = .kindMismatch t i expected actual
            else e = .shapeMismatch t t.shape.length vs.length)
    ∧ ∀ r : Record, ofValues r.kind r.values = .ok r ∧ ∃! row, Row.record r.kind row = r := by
  refine ⟨fun t vs => ⟨exists_ofValues_iff, Row.ofValues_map_record t vs, ?_⟩,
    fun r => ⟨ofValues_values r, existsUnique_row r⟩⟩
  split
  next r h => exact of_ofValues h
  next e h =>
    rw [ofValues] at h
    by_cases hlen : vs.length = t.shape.length
    · rw [dif_pos hlen] at h
      rw [if_pos hlen]
      split at h
      · contradiction
      next i expected actual hsome =>
        cases h
        exact ⟨i, expected, actual, firstDifference_of_mismatch? hsome, rfl⟩
    · rw [dif_neg hlen] at h
      rw [if_neg hlen]
      cases h
      rfl

end Record
end Telemetry
