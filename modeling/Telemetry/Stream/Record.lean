import Telemetry.Stream.Error

/-!
# Records — typed measurements

A record holds one value for each field of its kind.  `Record.ofValues` accepts exactly the value
lists of the right shape and otherwise reports the first difference.
-/

namespace Telemetry

structure Record where
  kind : StreamKind
  /-- one value for each field, in wire order -/
  values : List Value
  shaped : values.map Value.kind = kind.shape
  deriving DecidableEq

namespace Record

/-- The first position where a value is not of the expected kind. -/
def mismatch? : List FieldKind → List Value → Option (Nat × FieldKind × FieldKind)
  | k :: ks, v :: vs =>
      if v.kind = k then (mismatch? ks vs).map fun (i, e, a) => (i + 1, e, a)
      else some (0, k, v.kind)
  | _, _ => none

theorem map_kind_of_mismatch?_eq_none {ks : List FieldKind} {vs : List Value}
    (hlen : vs.length = ks.length) (h : mismatch? ks vs = none) : vs.map Value.kind = ks := by
  induction ks generalizing vs with
  | nil => simpa using hlen
  | cons k ks ih =>
      cases vs with
      | nil => simp at hlen
      | cons v vs =>
          unfold mismatch? at h
          split at h
          · next hk =>
            have htail : mismatch? ks vs = none := by simpa using h
            simp [hk, ih (by simpa using hlen) htail]
          · simp at h

def ofValues (kind : StreamKind) (values : List Value) : Except StreamError Record :=
  if hlen : values.length = kind.shape.length then
    match h : mismatch? kind.shape values with
    | none => .ok ⟨kind, values, map_kind_of_mismatch?_eq_none hlen h⟩
    | some (index, expected, actual) => .error (.kindMismatch kind index expected actual)
  else
    .error (.shapeMismatch kind kind.shape.length values.length)

def zeroed (kind : StreamKind) : Record where
  kind := kind
  values := kind.shape.map Value.zero
  shaped := by
    rw [List.map_map]
    exact List.map_id'' (fun k => Value.kind_zero k) _

end Record
end Telemetry
