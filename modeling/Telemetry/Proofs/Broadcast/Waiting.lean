import Telemetry.Broadcast.Reader

/-!
# Waiting — what a wait can come to

`Reader.Waited` lists the ways in which a wait ends or stays blocked, each with what the reader
found and with what is left behind.  Every call of `Reader.wait` is one of them
(`Reader.wait_waited`).  Where no permit is left over from a closed cycle, `Reader.Attempted` says
the same and tells exactly who takes a permit (`Reader.wait_attempted`).
-/

namespace Telemetry
namespace Reader

/-- A reader that took a permit of the open cycle and copied its content. -/
def served (r : Reader) (c : Region) : Reader :=
  { r with
    consumed := c.epoch
    admitted := true
    reading := some ⟨c.sequence, c.epoch⟩
    content := c.content
    phase := .idle }

/-- Everything that a wait can come to. -/
inductive Waited (r : Reader) (c : Region) : WaitResult × Reader × Region → Prop where
  /-- The epoch is still the one of the last permit. -/
  | asleep (left : Nat) (hleft : left ≤ c.permits) (hkept : c.isOpen = true → left = c.permits)
      (hepoch : c.epoch = r.consumed) :
      Waited r c (.blocked, { r with phase := .forEpoch }, c.withPermits left)
  /-- There is no permit, or none of an open cycle. -/
  | starved (hpassed : r.phase = .forPermit ∨ c.epoch ≠ r.consumed ∧ r.lag? c.epoch = none)
      (hpermits : c.permits = 0 ∨ c.isOpen = false) :
      Waited r c (.blocked, { r with phase := .forPermit }, c.withPermits 0)
  /-- The reader was admitted, and the epoch is not the next one. -/
  | lagged (left : Nat) (hleft : left ≤ c.permits) (e : BroadcastError)
      (he : r.lag? c.epoch = some e) :
      Waited r c (.failed e, { r with phase := .idle }, c.withPermits left)
  /-- The permit is one of the open cycle. -/
  | served (left : Nat) (hleft : c.permits = left + 1)
      (hpassed : r.phase = .forPermit ∨ c.epoch ≠ r.consumed) (hopen : c.isOpen = true)
      (hlag : r.lag? c.epoch = none) :
      Waited r c (.ready c.content, r.served c, c.withPermits left)

variable {r : Reader} {c : Region}

/-- The permits to take are given apart from the region. -/
theorem takePermit_withPermits (r : Reader) (c : Region) (n permits : Nat) :
    r.takePermit (c.withPermits n) permits = r.takePermit c permits := by
  induction permits with
  | zero => rfl
  | succ left ih =>
      rw [takePermit, takePermit, ih]
      rfl

/-- To wait for a permit is to try for one, over again while what comes is of a closed cycle. -/
theorem acquire_eq (r : Reader) (c : Region) :
    r.acquire c =
      match c.wait.tryWait with
      | (false, _) => (.blocked, { r with phase := .forPermit }, c)
      | (true, wait) =>
          if c.isOpen then
            match r.lag? c.epoch with
            | some e => (.failed e, { r with phase := .idle }, { c with wait := wait })
            | none => (.ready c.content, r.served c, { c with wait := wait })
          else if c.epoch = r.consumed then
            (.blocked, { r with phase := .forEpoch }, { c with wait := wait })
          else
            match r.lag? c.epoch with
            | some e => (.failed e, { r with phase := .idle }, { c with wait := wait })
            | none => r.acquire { c with wait := wait } := by
  rw [acquire]
  cases hpermits : c.permits with
  | zero =>
      rw [Semaphore.tryWait_of_zero hpermits, takePermit]
      dsimp only
      rw [Region.withPermits_eq_self hpermits]
  | succ left =>
      rw [Semaphore.tryWait_of_succ hpermits, takePermit]
      dsimp only
      cases hlag : r.lag? c.epoch with
      | some e =>
          split
          · rfl
          · split
            · rfl
            · rfl
      | none =>
          dsimp only
          rw [← takePermit_withPermits r c left left]
          split
          · rfl
          · split
            · rfl
            · rfl

/-- A permit of a closed cycle makes no difference. -/
theorem Waited.of_closed {answer : WaitResult × Reader × Region} {left : Nat}
    (h : Waited r (c.withPermits left) answer) (hclosed : c.isOpen = false)
    (hpermits : c.permits = left + 1) : Waited r c answer := by
  have hnot : c.isOpen ≠ true := by rw [hclosed]; exact nofun
  have hle : left ≤ c.permits := hpermits ▸ Nat.le_succ left
  cases h with
  | asleep left' hleft hkept hepoch =>
      exact .asleep left' (Nat.le_trans hleft hle) (fun hopen => absurd hopen hnot) hepoch
  | starved hpassed hstarved =>
      exact .starved hpassed (.inr hclosed)
  | lagged left' hleft e he =>
      exact .lagged left' (Nat.le_trans hleft hle) e he
  | served left' hleft hpassed hopen hlag =>
      exact absurd hopen hnot

theorem acquire_waited
    (hpassed : r.phase = .forPermit ∨ c.epoch ≠ r.consumed ∧ r.lag? c.epoch = none) :
    Waited r c (r.acquire c) := by
  -- only a permit of a closed cycle sends the reader on to the next permit
  induction hpermits : c.permits generalizing c with
  | zero =>
      have hstarved := Waited.starved hpassed (.inl hpermits)
      rw [Region.withPermits_eq_self hpermits] at hstarved
      rw [acquire_eq, Semaphore.tryWait_of_zero hpermits]
      exact hstarved
  | succ left ih =>
      have hle : left ≤ c.permits := hpermits ▸ Nat.le_succ left
      rw [acquire_eq, Semaphore.tryWait_of_succ hpermits]
      dsimp only
      by_cases hopen : c.isOpen = true
      · rw [if_pos hopen]
        cases hlag : r.lag? c.epoch with
        | some e =>
            exact .lagged left hle e hlag
        | none =>
            exact .served left hpermits (hpassed.imp_right And.left) hopen hlag
      · have hclosed : c.isOpen = false := by simpa using hopen
        rw [if_neg hopen]
        by_cases hepoch : c.epoch = r.consumed
        · rw [if_pos hepoch]
          exact .asleep left hle (fun h => absurd h hopen) hepoch
        · rw [if_neg hepoch]
          cases hlag : r.lag? c.epoch with
          | some e =>
              exact .lagged left hle e hlag
          | none =>
              exact (ih (c := c.withPermits left) hpassed rfl).of_closed hclosed hpermits

/-- A wait comes to nothing else. -/
theorem wait_waited (r : Reader) (c : Region) : Waited r c (r.wait c) := by
  rw [wait]
  cases hphase : r.phase with
  -- a reader that waits for a permit does not look at the epoch again
  | forPermit =>
      exact acquire_waited (.inl hphase)
  | _ =>
      dsimp only
      by_cases hepoch : c.epoch = r.consumed
      · rw [if_pos hepoch]
        exact .asleep c.permits (Nat.le_refl _) (fun _ => rfl) hepoch
      · rw [if_neg hepoch]
        cases hlag : r.lag? c.epoch with
        | some e =>
            exact .lagged c.permits (Nat.le_refl _) e hlag
        | none =>
            exact acquire_waited (.inr ⟨hepoch, hlag⟩)

/-! ## Permits of the open cycle -/

/-- A reader that goes on to take a permit. -/
def Reaches (r : Reader) (c : Region) : Prop :=
  r.phase = .forPermit ∨ c.epoch ≠ r.consumed ∧ r.lag? c.epoch = none

/-- Everything that a wait can come to where all permits are of the open cycle. -/
inductive Attempted (r : Reader) (c : Region) : WaitResult × Reader × Region → Prop where
  /-- The epoch is still the one of the last permit. -/
  | asleep (hphase : r.phase ≠ .forPermit) (hepoch : c.epoch = r.consumed) :
      Attempted r c (.blocked, { r with phase := .forEpoch }, c)
  /-- The reader was admitted, and sees that the epoch is not the next one. -/
  | missed (hphase : r.phase ≠ .forPermit) (hepoch : c.epoch ≠ r.consumed) (e : BroadcastError)
      (he : r.lag? c.epoch = some e) :
      Attempted r c (.failed e, { r with phase := .idle }, c)
  | starved (hreaches : r.Reaches c) (hpermits : c.permits = 0) :
      Attempted r c (.blocked, { r with phase := .forPermit }, c)
  /-- The reader takes a permit, and only then sees that the epoch is not the next one. -/
  | late (hphase : r.phase = .forPermit) (left : Nat) (hleft : c.permits = left + 1)
      (e : BroadcastError) (he : r.lag? c.epoch = some e) :
      Attempted r c (.failed e, { r with phase := .idle }, c.withPermits left)
  | served (hreaches : r.Reaches c) (left : Nat) (hleft : c.permits = left + 1)
      (hlag : r.lag? c.epoch = none) :
      Attempted r c (.ready c.content, r.served c, c.withPermits left)

theorem acquire_attempted (hreaches : r.Reaches c) (hopen : c.permits ≠ 0 → c.isOpen = true) :
    Attempted r c (r.acquire c) := by
  rw [acquire_eq]
  cases hpermits : c.permits with
  | zero =>
      rw [Semaphore.tryWait_of_zero hpermits]
      exact .starved hreaches hpermits
  | succ left =>
      have hisOpen : c.isOpen = true := hopen (by rw [hpermits]; exact Nat.succ_ne_zero left)
      rw [Semaphore.tryWait_of_succ hpermits]
      dsimp only
      rw [if_pos hisOpen]
      cases hlag : r.lag? c.epoch with
      | none =>
          exact .served hreaches left hpermits hlag
      | some e =>
          rcases hreaches with hphase | ⟨-, hnone⟩
          · exact .late hphase left hpermits e hlag
          · rw [hlag] at hnone
            cases hnone

/-- A wait comes to nothing else. -/
theorem wait_attempted (hopen : c.permits ≠ 0 → c.isOpen = true) : Attempted r c (r.wait c) := by
  rw [wait]
  cases hphase : r.phase with
  | forPermit =>
      exact acquire_attempted (.inl hphase) hopen
  | _ =>
      have hnot : r.phase ≠ .forPermit := by rw [hphase]; exact nofun
      dsimp only
      by_cases hepoch : c.epoch = r.consumed
      · rw [if_pos hepoch]
        exact .asleep hnot hepoch
      · rw [if_neg hepoch]
        cases hlag : r.lag? c.epoch with
        | some e => exact .missed hnot hepoch e hlag
        | none => exact acquire_attempted (.inr ⟨hepoch, hlag⟩) hopen

end Reader
end Telemetry
