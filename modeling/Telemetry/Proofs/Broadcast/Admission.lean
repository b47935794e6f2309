import Telemetry.Broadcast.Admission

/-!
# Admission — what the word counts

The word tells the cycles that were begun, modulo `Admission.epochs`, and the readers that joined in
the current one, as long as these are fewer than the low half can count (`Admission.Counts`).
-/

namespace Telemetry
namespace Admission

/-- Epochs tell cycles apart modulo this number. -/
def epochs : Nat := 4294967296

theorem uint32_ofNat_inj {m n : Nat} :
    UInt32.ofNat m = UInt32.ofNat n ↔ m % epochs = n % epochs := by
  rw [← UInt32.toNat_inj, UInt32.toNat_ofNat', UInt32.toNat_ofNat', epochs]

theorem uint64_ofNat_inj {m n : Nat} :
    UInt64.ofNat m = UInt64.ofNat n ↔ m % (epochs * epochs) = n % (epochs * epochs) := by
  rw [← UInt64.toNat_inj, UInt64.toNat_ofNat', UInt64.toNat_ofNat', epochs]

/-- The word stands for `cycle` cycles begun and `joins` readers that wait to be admitted. -/
structure Counts (a : Admission) (cycle joins : Nat) : Prop where
  word_eq : a.word.toNat = cycle % epochs * epochs + joins
  joins_lt : joins < epochs

namespace Counts

variable {a : Admission} {cycle joins : Nat}

theorem epoch_eq (h : a.Counts cycle joins) : a.epoch = UInt32.ofNat cycle := by
  have hword := h.word_eq
  have hjoins := h.joins_lt
  have hshift : (32 : UInt64).toNat % 64 = 32 := rfl
  refine UInt32.toNat_inj.1 ?_
  rw [epoch, UInt64.toNat_toUInt32, UInt64.toNat_shiftRight, hshift, UInt32.toNat_ofNat',
    Nat.shiftRight_eq_div_pow, hword]
  simp only [epochs] at *
  omega

theorem pending_eq (h : a.Counts cycle joins) : a.pending.toNat = joins := by
  have hword := h.word_eq
  have hjoins := h.joins_lt
  rw [pending, UInt64.toNat_toUInt32, hword]
  simp only [epochs] at *
  omega

/-- A registration is counted, and the reader joins at the current epoch. -/
theorem register (h : a.Counts cycle joins) (hroom : joins + 1 < epochs) :
    a.register.1 = UInt32.ofNat cycle ∧ a.register.2.Counts cycle (joins + 1) := by
  refine ⟨h.epoch_eq, ?_, hroom⟩
  have hword := h.word_eq
  rw [Admission.register, UInt64.toNat_add, hword, UInt64.toNat_one]
  simp only [epochs] at *
  omega

/-- The next epoch starts without registrations. -/
theorem advance (h : a.Counts cycle joins) : a.advance.2.Counts (cycle + 1) 0 := by
  refine ⟨?_, by decide⟩
  have hshift : (32 : UInt64).toNat % 64 = 32 := rfl
  have hepoch : (a.epoch + 1).toNat = (cycle + 1) % epochs := by
    rw [h.epoch_eq, UInt32.toNat_add, UInt32.toNat_ofNat', UInt32.toNat_one, Nat.mod_add_mod,
      epochs]
  rw [Admission.advance, UInt64.toNat_shiftLeft, hshift, UInt32.toNat_toUInt64, hepoch,
    Nat.shiftLeft_eq]
  simp only [epochs]
  omega

end Counts
end Admission
end Telemetry
