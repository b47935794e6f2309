import Telemetry.Field

/-!
# Big-endian numbers

Numbers as bytes, most significant byte first, and field values as the bytes of their raw integer.
-/

namespace Telemetry
namespace Wire

/-- The last `size` bytes of `n`, most significant first. -/
def bigEndian : (size : Nat) → (n : Nat) → List UInt8
  | 0, _ => []
  | size + 1, n => bigEndian size (n / 256) ++ [UInt8.ofNat n]

@[simp] theorem length_bigEndian (size n : Nat) : (bigEndian size n).length = size := by
  induction size generalizing n with
  | zero => rfl
  | succ size ih => simp [bigEndian, ih]

def ofBigEndian (bytes : List UInt8) : Nat :=
  bytes.foldl (fun n b => n * 256 + b.toNat) 0

end Wire

namespace Value

/-- The raw integer of a value; negative numbers in two's complement. -/
def raw : Value → Nat
  | counter64 n => n.toNat
  | counter32 n => n.toNat
  | percent p => p.tenths.toNat
  | scaled s => s.hundredths.toNat
  | fixed f => f.millionths.toUInt64.toNat
  | byte b => b.toNat

def bytes (v : Value) : List UInt8 :=
  Wire.bigEndian v.kind.size v.raw

@[simp] theorem length_bytes (v : Value) : v.bytes.length = v.kind.size := by
  simp [bytes]

def ofRaw (k : FieldKind) (n : Nat) : Value :=
  match k with
  | .counter64 => counter64 n.toUInt64
  | .counter32 => counter32 n.toUInt32
  | .percent => percent ⟨n.toUInt16⟩
  | .scaled => scaled ⟨n.toUInt16⟩
  | .fixed => fixed ⟨n.toUInt64.toInt64⟩
  | .byte => byte n.toUInt8

@[simp] theorem kind_ofRaw (k : FieldKind) (n : Nat) : (ofRaw k n).kind = k := by
  cases k <;> rfl

def ofBytes (k : FieldKind) (bytes : List UInt8) : Value :=
  ofRaw k (Wire.ofBigEndian bytes)

end Value
end Telemetry
