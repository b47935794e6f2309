import Telemetry.Broadcast.Error

/-!
# Semaphores

A counting semaphore with a name.  A name is `/stem_process_number`; what stands behind its leading
slashes must not hold another one.  Removing the name leaves the count in use.  The count is bounded,
and a post beyond the bound is refused.
-/

namespace Telemetry

/-- Who asks for a name: a process, and how many names it has asked for. -/
structure NameSource where
  process : Nat
  count : Nat
  deriving DecidableEq, Repr

structure Semaphore where
  name : String
  count : Nat
  linked : Bool
  deriving DecidableEq, Repr

namespace Semaphore

def maxCount : Nat := 2147483647

/-- Bytes of the longest name behind its slashes. -/
def longestName : Nat := 250

def nameFor (stem : String) (source : NameSource) : String :=
  s!"/{stem}_{source.process}_{source.count}"

def isAllowed (name : String) : Bool :=
  let bare := name.toList.dropWhile (· == '/')
  !bare.isEmpty && !bare.contains '/' && decide ((String.ofList bare).utf8ByteSize ≤ longestName)

def create (stem : String) (source : NameSource) (initial : Nat) :
    Except BroadcastError Semaphore :=
  let name := nameFor stem source
  if name.toList.contains '\x00' then .error (.invalidName name)
  else if isAllowed name && decide (initial ≤ maxCount) then .ok ⟨name, initial, true⟩
  else .error (.semaphore "sem_open" name)

/-- A name, for where it makes no difference. -/
def plainName : String := "/symux"

/-- A semaphore without permits. -/
def idle (name : String) : Semaphore :=
  ⟨name, 0, true⟩

/-! ## Counting -/

def post (s : Semaphore) : Except BroadcastError Semaphore :=
  if s.count < maxCount then .ok { s with count := s.count + 1 }
  else .error (.semaphore "sem_post" s.name)

/-- Post so many times, up to the first post that is refused. -/
def postAll (s : Semaphore) : Nat → Except BroadcastError Unit × Semaphore
  | 0 => (.ok (), s)
  | n + 1 =>
      match s.post with
      | .ok s => s.postAll n
      | .error e => (.error e, s)

def tryWait (s : Semaphore) : Bool × Semaphore :=
  match s.count with
  | 0 => (false, s)
  | n + 1 => (true, { s with count := n })

def drain (s : Semaphore) : Nat × Semaphore :=
  (s.count, { s with count := 0 })

theorem tryWait_of_zero {s : Semaphore} (h : s.count = 0) : s.tryWait = (false, s) := by
  rw [tryWait, h]

theorem tryWait_of_succ {s : Semaphore} {left : Nat} (h : s.count = left + 1) :
    s.tryWait = (true, { s with count := left }) := by
  rw [tryWait, h]

theorem count_tryWait_le (s : Semaphore) : s.tryWait.2.count ≤ s.count := by
  cases hcount : s.count with
  | zero =>
      rw [tryWait_of_zero hcount]
      exact Nat.le_of_eq hcount
  | succ left =>
      rw [tryWait_of_succ hcount]
      exact Nat.le_succ left

theorem count_le_of_create {stem : String} {source : NameSource} {initial : Nat} {s : Semaphore}
    (h : create stem source initial = .ok s) : s.count ≤ maxCount := by
  rw [create] at h
  split at h
  · contradiction
  split at h
  next hallowed =>
    cases h
    exact of_decide_eq_true (Bool.and_eq_true_iff.1 hallowed).2
  · contradiction

/-- What posts leave: the count stops at its bound, and the post that would go beyond it is refused. -/
theorem postAll_eq {s : Semaphore} (h : s.count ≤ maxCount) (n : Nat) :
    s.postAll n
      = (if s.count + n ≤ maxCount then .ok () else .error (.semaphore "sem_post" s.name),
          { s with count := min (s.count + n) maxCount }) := by
  induction n generalizing s with
  | zero =>
      rw [postAll, Nat.add_zero, if_pos h, Nat.min_eq_left h]
  | succ n ih =>
      rw [postAll, post]
      by_cases hroom : s.count < maxCount
      · rw [if_pos hroom]
        dsimp only
        rw [ih (s := { s with count := s.count + 1 }) hroom]
        dsimp only
        rw [Nat.add_right_comm, Nat.add_assoc]
      · have hfull : s.count = maxCount := Nat.le_antisymm h (Nat.not_lt.1 hroom)
        have hbeyond : ¬s.count + (n + 1) ≤ maxCount := by omega
        have hmin : min (s.count + (n + 1)) maxCount = s.count := by omega
        rw [if_neg hroom, if_neg hbeyond, hmin]

def unlink (s : Semaphore) : Semaphore :=
  { s with linked := false }

/-! ## Runs -/

inductive Use where
  | post
  | tryWait
  | drain
  /-- take one permit, or stay blocked -/
  | wait
  | unlink
  deriving DecidableEq, Repr

inductive Reply where
  | nothing
  | taken (b : Bool)
  | drained (n : Nat)
  | blocked
  | failed (e : BroadcastError)
  deriving DecidableEq, Repr

def apply (s : Semaphore) : Use → Reply × Semaphore
  | .post =>
      match s.post with
      | .ok s => (.nothing, s)
      | .error e => (.failed e, s)
  | .tryWait =>
      let (b, s) := s.tryWait
      (.taken b, s)
  | .drain =>
      let (n, s) := s.drain
      (.drained n, s)
  | .wait =>
      let (b, s) := s.tryWait
      (if b then .nothing else .blocked, s)
  | .unlink => (.nothing, s.unlink)

theorem count_apply_le {s : Semaphore} (h : s.count ≤ maxCount) (u : Use) :
    (s.apply u).2.count ≤ maxCount := by
  cases u with
  | post =>
      rw [apply, post]
      by_cases hroom : s.count < maxCount
      · rw [if_pos hroom]
        exact hroom
      · rw [if_neg hroom]
        exact h
  | tryWait => exact Nat.le_trans s.count_tryWait_le h
  | drain => exact Nat.zero_le maxCount
  | wait => exact Nat.le_trans s.count_tryWait_le h
  | unlink => exact h

theorem count_foldl_apply_le {s : Semaphore} (h : s.count ≤ maxCount) (uses : List Use) :
    (uses.foldl (fun s u => (s.apply u).2) s).count ≤ maxCount := by
  induction uses generalizing s with
  | nil => exact h
  | cons u uses ih => exact ih (count_apply_le h u)

/-- Whatever is done with a semaphore after it was created, its count stays within the bound. -/
theorem count_uses_le {stem : String} {source : NameSource} {initial : Nat} {s : Semaphore}
    (h : create stem source initial = .ok s) (uses : List Use) :
    (uses.foldl (fun s u => (s.apply u).2) s).count ≤ maxCount :=
  count_foldl_apply_le (count_le_of_create h) uses

end Semaphore
end Telemetry
