import Telemetry.Broadcast.Region

/-!
# Master — the single writer

A cycle has three steps: forbid closes the previous cycle and admits new readers, write replaces the
content, permit publishes it and releases one permit for each live reader.  Readers in processes of
their own are reaped when a cycle is closed; one that was killed could not record that it left, so
the master counts it out.
-/

namespace Telemetry

inductive ChildStatus where
  | running
  | exited (code : Nat)
  | killed
  /-- no child of this process, or not one any more -/
  | unknown
  deriving DecidableEq, Repr

/-- Exit code of a reader process that fell behind. -/
def laggingExit : Nat := 3

def exitCode : Except BroadcastError Unit → Nat
  | .ok () => 0
  | .error e => if e.isLagging then laggingExit else 1

structure Reaped where
  clean : Nat
  lagging : Nat
  failed : Nat
  killed : Nat
  deriving DecidableEq, Repr

namespace Reaped

def none : Reaped := ⟨0, 0, 0, 0⟩

def total (r : Reaped) : Nat :=
  r.clean + r.lagging + r.failed + r.killed

/-- Count one ended process; one that is still running, or unknown, is not counted. -/
def count (r : Reaped) : ChildStatus → Reaped
  | .exited code =>
      if code = 0 then { r with clean := r.clean + 1 }
      else if code = laggingExit then { r with lagging := r.lagging + 1 }
      else { r with failed := r.failed + 1 }
  | .killed => { r with killed := r.killed + 1 }
  | .running | .unknown => r

end Reaped

structure Master where
  /-- readers admitted and not known to have left -/
  live : Nat
  /-- processes of readers not yet reaped -/
  children : List Nat
  reaped : Reaped
  deriving DecidableEq, Repr

namespace Master

def fresh : Master :=
  ⟨0, [], Reaped.none⟩

/-- Collect the children that ended; how many of them were killed is answered. -/
def reap (m : Master) (status : Nat → ChildStatus) : Nat × Master :=
  let killed := (m.children.filter fun p => status p == .killed).length
  let m :=
    { m with
      children := m.children.filter fun p => status p == .running
      reaped := m.children.foldl (fun r p => r.count (status p)) m.reaped }
  (killed, m)

/-- Close the cycle and admit the readers that registered during it. -/
def forbidRead (m : Master) (status : Nat → ChildStatus) (c : Region) : Master × Region :=
  -- from here on a reader that still copies the old cycle finds its content torn
  let (pending, admission) := c.admission.advance
  let (killed, m) := m.reap status
  -- readers that left or were killed are counted out, those that waited are counted in
  let m := { m with live := m.live + pending.toNat - (c.departed.toNat + killed) }
  let (_, wait) := c.wait.drain
  (m, { c with admission := admission, departed := 0, wait := wait, readDone := 0 })

/-- Publish the content and release a permit for each live reader.  The cycle is open before the
permits are posted, also if one of them is refused. -/
def permitRead (m : Master) (c : Region) : Except BroadcastError Unit × Region :=
  let (posted, wait) := c.wait.postAll m.live
  (posted,
    { c with sequence := c.sequence + 1, permitEpoch := c.epoch.toUInt64, wait := wait })

/-- After a cycle was closed no permits are left, and those posted are as many as the semaphore counts. -/
theorem permitRead_eq (m : Master) {c : Region} (h : c.permits = 0) :
    m.permitRead c
      = (if m.live ≤ Semaphore.maxCount then .ok ()
          else .error (.semaphore "sem_post" c.wait.name),
        { c with
          sequence := c.sequence + 1
          permitEpoch := c.epoch.toUInt64
          wait := { c.wait with count := min m.live Semaphore.maxCount } }) := by
  have hcount : c.wait.count = 0 := h
  have hle : c.wait.count ≤ Semaphore.maxCount := hcount ▸ Nat.zero_le _
  rw [permitRead, Semaphore.postAll_eq hle, hcount, Nat.zero_add]

/-- One full cycle; content that is too large opens none. -/
def broadcast (m : Master) (status : Nat → ChildStatus) (c : Region) (content : List UInt8) :
    Except BroadcastError Unit × Master × Region :=
  if content.length > c.capacity then
    (.error (.contentTooLarge content.length c.capacity), m, c)
  else
    let (m, c) := m.forbidRead status c
    match c.write content with
    | .error e => (.error e, m, c)
    | .ok c =>
        let (posted, c) := m.permitRead c
        (posted, m, c)

end Master
end Telemetry
