import Telemetry.Wire.BigEndian
import Telemetry.Wire.Error

/-!
# Reader — field reading

A reader takes fields from a buffer, one after another, and reports a field that the buffer does
not hold in full.
-/

namespace Telemetry
namespace Wire

/-- A buffer that is read field by field. -/
structure Reader where
  buffer : List UInt8
  offset : Nat
  deriving DecidableEq, Repr

namespace Reader

def getValue (r : Reader) (k : FieldKind) : Except WireError (Value × Reader) :=
  let bytes := (r.buffer.drop r.offset).take k.size
  if bytes.length = k.size then
    .ok (Value.ofBytes k bytes, { r with offset := r.offset + k.size })
  else
    .error (.truncated k.size (r.buffer.length - r.offset))

def getValues (r : Reader) : List FieldKind → Except WireError (List Value × Reader)
  | [] => .ok ([], r)
  | k :: ks =>
      match r.getValue k with
      | .error e => .error e
      | .ok (v, r') =>
          match r'.getValues ks with
          | .error e => .error e
          | .ok (vs, r'') => .ok (v :: vs, r'')

theorem offset_of_getValue {r r' : Reader} {k : FieldKind} {v : Value}
    (h : r.getValue k = .ok (v, r')) : r'.offset = r.offset + k.size := by
  unfold getValue at h
  dsimp only at h
  split at h
  · simp only [Except.ok.injEq, Prod.mk.injEq] at h
    rw [← h.2]
  · contradiction

theorem offset_of_getValues {ks : List FieldKind} {r r' : Reader} {vs : List Value}
    (h : r.getValues ks = .ok (vs, r')) : r'.offset = r.offset + FieldKind.totalSize ks := by
  induction ks generalizing r vs with
  | nil =>
      simp only [getValues, Except.ok.injEq, Prod.mk.injEq] at h
      simp [← h.2, FieldKind.totalSize]
  | cons k ks ih =>
      unfold getValues at h
      split at h
      · contradiction
      · next v r₁ hv =>
        split at h
        · contradiction
        · next vs' r₂ hvs =>
          simp only [Except.ok.injEq, Prod.mk.injEq] at h
          obtain ⟨-, rfl⟩ := h
          rw [ih hvs, offset_of_getValue hv]
          simp [FieldKind.totalSize, Nat.add_assoc]

end Reader
end Wire
end Telemetry
