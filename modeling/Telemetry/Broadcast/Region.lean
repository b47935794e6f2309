import Telemetry.Broadcast.Admission
import Telemetry.Broadcast.Semaphore

/-!
# Region — what the master and its readers share

The header words, the content of the current cycle, and the semaphore that readers wait on.  The
master is the only writer of content and sequence, and the only one to post permits.
-/

namespace Telemetry

/-- Bytes of the header in front of the data. -/
def regionHeaderSize : Nat := 64

structure Region where
  capacity : Nat
  /-- cycles permitted so far -/
  sequence : UInt64
  content : List UInt8
  /-- readers that finished the current cycle -/
  readDone : UInt64
  admission : Admission
  /-- the epoch that was permitted last -/
  permitEpoch : UInt64
  /-- readers that left since the last epoch was opened -/
  departed : UInt64
  /-- its permits are what readers wait for -/
  wait : Semaphore
  content_fits : content.length ≤ capacity

namespace Region

/-- No epoch is ever permitted under this number. -/
def neverPermitted : UInt64 := 0xFFFFFFFFFFFFFFFF

/-- A region without content, with a semaphore of the name that is given. -/
def fresh (capacity : Nat) (name : String := Semaphore.plainName) : Region where
  capacity := capacity
  sequence := 0
  content := []
  readDone := 0
  admission := ⟨0⟩
  permitEpoch := neverPermitted
  departed := 0
  wait := .idle name
  content_fits := Nat.zero_le _

def epoch (c : Region) : UInt32 :=
  c.admission.epoch

/-- The permits that are left. -/
def permits (c : Region) : Nat :=
  c.wait.count

def withPermits (c : Region) (permits : Nat) : Region :=
  { c with wait := { c.wait with count := permits } }

@[simp] theorem permits_withPermits (c : Region) (permits : Nat) :
    (c.withPermits permits).permits = permits := rfl

theorem withPermits_eq_self {c : Region} {permits : Nat} (h : c.permits = permits) :
    c.withPermits permits = c := by
  rw [← h]
  rfl

def totalLength (c : Region) : Nat :=
  regionHeaderSize + c.capacity

def isOpen (c : Region) : Bool :=
  c.permitEpoch == c.epoch.toUInt64

/-- Register one reader; it joins at the epoch that is answered. -/
def register (c : Region) : UInt32 × Region :=
  let (epoch, admission) := c.admission.register
  (epoch, { c with admission := admission })

def depart (c : Region) : Region :=
  { c with departed := c.departed + 1 }

def write (c : Region) (content : List UInt8) : Except BroadcastError Region :=
  if h : content.length ≤ c.capacity then
    .ok { c with content := content, content_fits := h }
  else
    .error (.contentTooLarge content.length c.capacity)

end Region
end Telemetry
