/-!
# Admission — epoch and pending readers in one word

The high half of the word is the epoch, the low half counts the readers that registered since the
epoch was opened.  Registering adds one to the word; opening the next epoch replaces the word, so a
registration belongs to exactly one epoch.
-/

namespace Telemetry

structure Admission where
  word : UInt64
  deriving DecidableEq, Repr

namespace Admission

def epoch (a : Admission) : UInt32 :=
  (a.word >>> 32).toUInt32

def pending (a : Admission) : UInt32 :=
  a.word.toUInt32

/-- Register one reader; it joins at the epoch that is answered. -/
def register (a : Admission) : UInt32 × Admission :=
  (a.epoch, ⟨a.word + 1⟩)

/-- Open the next epoch; the readers registered since the last one are answered. -/
def advance (a : Admission) : UInt32 × Admission :=
  (a.pending, ⟨(a.epoch + 1).toUInt64 <<< 32⟩)

end Admission
end Telemetry
