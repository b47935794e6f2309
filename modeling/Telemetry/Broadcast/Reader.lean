import Telemetry.Broadcast.Region

/-!
# Readers

A reader takes at most one permit in an epoch.  It waits until the epoch differs from the one it last
took a permit in, then for a permit; a permit of an epoch that is not open is thrown away and the
waiting starts over.  Once admitted, a reader may only move to the epoch right after its last one.

A wait that cannot go on leaves the reader in a phase from which it is resumed.
-/

namespace Telemetry

inductive WaitPhase where
  | idle
  /-- until the epoch changes -/
  | forEpoch
  /-- until there is a permit -/
  | forPermit
  deriving DecidableEq, Repr

/-- The cycle whose content a reader holds. -/
structure CycleMark where
  sequence : UInt64
  epoch : UInt32
  deriving DecidableEq, Repr

structure Reader where
  /-- the epoch of the last permit taken, at first the one joined at -/
  consumed : UInt32
  /-- whether a cycle was read -/
  admitted : Bool
  /-- the cycle read and not yet done -/
  reading : Option CycleMark
  content : List UInt8
  phase : WaitPhase
  deriving DecidableEq, Repr

inductive WaitResult where
  | blocked
  | failed (e : BroadcastError)
  | ready (content : List UInt8)
  deriving DecidableEq, Repr

namespace Reader

def join (c : Region) : Reader × Region :=
  let (epoch, c) := c.register
  (⟨epoch, false, none, [], .idle⟩, c)

/-- The error of an admitted reader that would skip an epoch. -/
def lag? (r : Reader) (epoch : UInt32) : Option BroadcastError :=
  if r.admitted ∧ epoch ≠ r.consumed + 1 then some (.lagged r.consumed epoch) else none

/-- Take permits, one at each `tryWait`, until one is of an open epoch; those left are answered. -/
def takePermit (r : Reader) (c : Region) : (permits : Nat) → WaitResult × Reader × Nat
  | 0 => (.blocked, { r with phase := .forPermit }, 0)
  | left + 1 =>
      -- the permit is of the epoch that is open now
      if c.isOpen then
        match r.lag? c.epoch with
        | some e => (.failed e, { r with phase := .idle }, left)
        | none =>
            let r :=
              { r with
                consumed := c.epoch
                admitted := true
                reading := some ⟨c.sequence, c.epoch⟩
                content := c.content
                phase := .idle }
            (.ready c.content, r, left)
      -- the permit was left over from a closed cycle: it is gone, and the wait begins anew
      else if c.epoch = r.consumed then
        (.blocked, { r with phase := .forEpoch }, left)
      else
        match r.lag? c.epoch with
        | some e => (.failed e, { r with phase := .idle }, left)
        | none => takePermit r c left

def acquire (r : Reader) (c : Region) : WaitResult × Reader × Region :=
  let (result, r, left) := r.takePermit c c.permits
  (result, r, c.withPermits left)

/-- Wait for the content of the next cycle, or go on with a wait that was blocked. -/
def wait (r : Reader) (c : Region) : WaitResult × Reader × Region :=
  match r.phase with
  -- the epoch was looked at before the wait for a permit began
  | .forPermit => r.acquire c
  | .idle | .forEpoch =>
      if c.epoch = r.consumed then (.blocked, { r with phase := .forEpoch }, c)
      else
        match r.lag? c.epoch with
        | some e => (.failed e, { r with phase := .idle }, c)
        | none => r.acquire c

/-- Confirm that the content was not overwritten, and count the reader as done. -/
def finish (r : Reader) (c : Region) : Except BroadcastError Region × Reader :=
  match r.reading with
  | none => (.error .notReading, r)
  | some mark =>
      -- either way the cycle is over for this reader
      let r := { r with reading := none }
      if c.sequence = mark.sequence ∧ c.epoch = mark.epoch then
        (.ok { c with readDone := c.readDone + 1 }, r)
      else
        (.error (.tornRead mark.sequence mark.epoch c.sequence c.epoch), r)

end Reader
end Telemetry
