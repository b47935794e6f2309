import Mathlib.Data.List.Chain
import Telemetry.Proofs.Broadcast.Overrun

/-!
# Lock-step — what a reader gets to see

Along every schedule the words of the region and the private words of each reader stand for the
numbers of the log (`Room.Consistent`).  A reader is therefore let in only while a cycle is open
that began after it joined, and only to the cycle right after the one it read last.

The numbers are kept in words of 32 and 64 bits.  In runs that are long enough for one of them to come
round, readers are told wrong (`Room.Scheduled.lockstep_overrun`).
-/

namespace Telemetry

/-- What a call of a reader leaves of a region: it may take permits and count, and the rest is for
the master to change. -/
structure Region.KeptBy (c c' : Region) : Prop where
  admission_eq : c'.admission = c.admission
  sequence_eq : c'.sequence = c.sequence
  permitEpoch_eq : c'.permitEpoch = c.permitEpoch
  permits_le : c'.permits ≤ c.permits
  content_eq : c'.content = c.content
  capacity_eq : c'.capacity = c.capacity

theorem Region.KeptBy.refl (c : Region) : c.KeptBy c :=
  ⟨rfl, rfl, rfl, Nat.le_refl _, rfl, rfl⟩

namespace Room

/-! ## The invariant -/

/-- A cycle is the next one after another.  As epochs wrap around, it may also be one that is
`Admission.epochs` or more cycles later. -/
def Next (earlier later : Nat) : Prop :=
  earlier < later ∧ (later < earlier + Admission.epochs → later = earlier + 1)

/-- A reader stands where its attendance says, while `cycle` cycles were begun and the last of them
got to `stage`. -/
structure Attendance.Follows (c : Nat → List UInt8) (cycle : Nat) (stage : Stage) (e : Attendance)
    (r : Reader) : Prop where
  consumed_eq : r.consumed = UInt32.ofNat (e.last.getD e.joined)
  admitted_eq : r.admitted = e.last.isSome
  joined_le : e.joined ≤ cycle
  last_le : ∀ h, e.last = some h → e.joined < h ∧ h ≤ cycle
  opened_of_last : e.last = some cycle → stage = .opened
  reading_eq : r.reading = e.reading.map fun h => ⟨UInt64.ofNat h, UInt32.ofNat h⟩
  last_of_reading : ∀ h, e.reading = some h → e.last = some h
  of_mem_reads : ∀ x ∈ e.reads, e.joined < x.1 ∧ x.2 = c x.1
  reads_chain : e.reads.IsChain fun later earlier => Next earlier.1 later.1
  /-- the epoch was looked at before the wait for a permit -/
  joined_lt : r.phase = .forPermit → e.last = none → e.joined < cycle

/-- The room stands where the log says. -/
structure Consistent (c : Nat → List UInt8) (capacity : Nat) (r : Room) (l : Log) : Prop where
  admission : r.region.admission.Counts l.cycle l.joins
  sequence_eq : r.region.sequence = UInt64.ofNat l.permitted
  permitEpoch_eq : r.region.permitEpoch =
    if l.permitted = 0 then Region.neverPermitted else (UInt32.ofNat l.permitted).toUInt64
  opened_of_permits : r.region.permits ≠ 0 → l.stage = .opened
  content_eq : l.stage = .written ∨ l.stage = .opened → r.region.content = c l.cycle
  capacity_eq : r.region.capacity = capacity
  cycle_eq_zero : l.stage = .unbegun ↔ l.cycle = 0
  length_eq : l.readers.length = r.seats.length
  follows : ∀ (i : Nat) (s : Seat) (e : Attendance), r.seats[i]? = some s → l.readers[i]? = some e →
    e.Follows c l.cycle l.stage s.reader

namespace Attendance.Follows

variable {c : Nat → List UInt8} {cycle : Nat} {stage : Stage} {e : Attendance} {r : Reader}

/-- Writing and permitting make no difference to a reader. -/
theorem of_stage {stage' : Stage} (h : e.Follows c cycle stage r) (hstage : stage ≠ .opened) :
    e.Follows c cycle stage' r :=
  { h with opened_of_last := fun hlast => absurd (h.opened_of_last hlast) hstage }

theorem forbid (h : e.Follows c cycle stage r) : e.Follows c (cycle + 1) .forbidden r :=
  { h with
    joined_le := Nat.le_succ_of_le h.joined_le
    last_le := fun k hk => ⟨(h.last_le k hk).1, Nat.le_succ_of_le (h.last_le k hk).2⟩
    opened_of_last := fun hlast => absurd (h.last_le _ hlast).2 (Nat.not_succ_le_self cycle)
    joined_lt := fun _ _ => Nat.lt_succ_of_le h.joined_le }

/-- A wait that is not served keeps its reader where it is. -/
theorem of_phase (h : e.Follows c cycle stage r) {phase : WaitPhase}
    (hphase : phase = .forPermit → e.last = none → e.joined < cycle) :
    e.Follows c cycle stage { r with phase := phase } :=
  { h with joined_lt := hphase }

theorem confirm (h : e.Follows c cycle stage r) :
    Follows c cycle stage { e with reading := none } { r with reading := none } :=
  { h with
    reading_eq := rfl
    last_of_reading := fun _ hk => by simp at hk }

/-- A reader that is let in joined before the cycle, and if it was admitted, the cycle is the next
one for it. -/
theorem of_passed (h : e.Follows c cycle stage r)
    (hpassed : r.phase = .forPermit ∨ UInt32.ofNat cycle ≠ r.consumed)
    (hlag : r.lag? (UInt32.ofNat cycle) = none) :
    e.joined < cycle ∧ ∀ k, e.last = some k → Next k cycle := by
  cases hlast : e.last with
  | none =>
      refine ⟨?_, fun k hk => by cases hk⟩
      rcases hpassed with hphase | hepoch
      · exact h.joined_lt hphase hlast
      · refine Nat.lt_of_le_of_ne h.joined_le fun heq => hepoch ?_
        rw [h.consumed_eq, hlast, heq]
        rfl
  | some k =>
      obtain ⟨hjoined, hle⟩ := h.last_le k hlast
      have hnext : UInt32.ofNat cycle = UInt32.ofNat (k + 1) := by
        rw [Reader.lag?, h.admitted_eq, h.consumed_eq, hlast] at hlag
        simpa using hlag
      have hmod := Admission.uint32_ofNat_inj.1 hnext
      have hnext : Next k cycle := by
        simp only [Next, Admission.epochs] at *
        omega
      refine ⟨Nat.lt_trans hjoined hnext.1, fun k' hk' => ?_⟩
      cases hk'
      exact hnext

/-- An admitted reader that missed a cycle is told so, unless the epochs wrapped around. -/
theorem lag?_eq (h : e.Follows c cycle stage r) {k : Nat} (hlast : e.last = some k)
    (hlate : k + 2 ≤ cycle) (hnear : cycle < k + Admission.epochs) :
    r.lag? (UInt32.ofNat cycle) = some (.lagged (UInt32.ofNat k) (UInt32.ofNat cycle)) := by
  have hnext : UInt32.ofNat cycle ≠ UInt32.ofNat k + 1 := by
    intro heq
    rw [← UInt32.ofNat_one, ← UInt32.ofNat_add] at heq
    have hmod := Admission.uint32_ofNat_inj.1 heq
    simp only [Admission.epochs] at *
    omega
  rw [Reader.lag?, h.admitted_eq, h.consumed_eq, hlast]
  exact if_pos ⟨rfl, hnext⟩

/-- A reader at the epoch of the cycle it read last is not let in again. -/
theorem lag?_ne_none (h : e.Follows c cycle stage r) {k : Nat} (hlast : e.last = some k)
    {epoch : UInt32} (hepoch : epoch = UInt32.ofNat k) : r.lag? epoch ≠ none := by
  have hnext : epoch ≠ UInt32.ofNat k + 1 := by
    rw [hepoch]
    exact mt UInt32.left_eq_add.1 (by decide)
  rw [Reader.lag?, h.admitted_eq, h.consumed_eq, hlast, if_pos ⟨rfl, hnext⟩]
  exact nofun

theorem served (h : e.Follows c cycle stage r) {region : Region} (hopened : stage = .opened)
    (hepoch : region.epoch = UInt32.ofNat cycle)
    (hsequence : region.sequence = UInt64.ofNat cycle) (hjoined : e.joined < cycle)
    (hnext : ∀ k, e.last = some k → Next k cycle) :
    Follows c cycle stage { e with reads := (cycle, c cycle) :: e.reads, reading := some cycle }
      (r.served region) where
  consumed_eq := hepoch
  admitted_eq := rfl
  joined_le := h.joined_le
  last_le k hk := by
    cases hk
    exact ⟨hjoined, Nat.le_refl cycle⟩
  opened_of_last _ := hopened
  reading_eq := by
    rw [Reader.served, hepoch, hsequence]
    rfl
  last_of_reading k hk := hk
  of_mem_reads x hx := by
    rcases List.mem_cons.1 hx with rfl | hx
    · exact ⟨hjoined, rfl⟩
    · exact h.of_mem_reads x hx
  reads_chain := h.reads_chain.cons fun x hx => hnext x.1 (by rw [last, hx]; rfl)
  joined_lt hphase := by cases hphase

end Attendance.Follows

namespace Consistent

variable {c : Nat → List UInt8} {capacity : Nat} {r : Room} {l : Log}

theorem epoch_eq (h : Consistent c capacity r l) : r.region.epoch = UInt32.ofNat l.cycle :=
  h.admission.epoch_eq

theorem cycle_ne_zero (h : Consistent c capacity r l) (hstage : l.stage ≠ .unbegun) :
    l.cycle ≠ 0 :=
  fun hzero => hstage (h.cycle_eq_zero.2 hzero)

theorem isOpen_iff (h : Consistent c capacity r l) :
    r.region.isOpen = true ↔ l.stage = .opened := by
  have hnever : ∀ n, Region.neverPermitted ≠ (UInt32.ofNat n).toUInt64 := by
    intro n heq
    have hlt := (UInt32.ofNat n).toNat_lt
    have heq := congrArg UInt64.toNat heq
    rw [UInt32.toNat_toUInt64] at heq
    rw [← heq] at hlt
    exact absurd hlt (by decide)
  rw [Region.isOpen, beq_iff_eq, h.permitEpoch_eq, h.epoch_eq, Log.permitted]
  by_cases hopen : l.stage = .opened
  · have hpos : l.cycle ≠ 0 := h.cycle_ne_zero (by rw [hopen]; decide)
    rw [if_pos hopen, if_neg hpos]
    exact iff_of_true rfl hopen
  · rw [if_neg hopen]
    refine iff_of_false ?_ hopen
    split
    next => exact hnever l.cycle
    -- the cycle permitted last is the one before, and that has another epoch
    next hpos =>
      intro heq
      have hmod := Admission.uint32_ofNat_inj.1 (UInt32.toUInt64_inj.1 heq)
      simp only [Admission.epochs] at hmod
      omega

theorem sequence_of_opened (h : Consistent c capacity r l) (hopened : l.stage = .opened) :
    r.region.sequence = UInt64.ofNat l.cycle := by
  rw [h.sequence_eq, Log.permitted, if_pos hopened]

theorem permits_of_closed (h : Consistent c capacity r l) (hclosed : l.stage ≠ .opened) :
    r.region.permits = 0 :=
  Decidable.byContradiction fun hne => hclosed (h.opened_of_permits hne)

theorem start (c : Nat → List UInt8) (capacity : Nat) (name : String) :
    Consistent c capacity (fresh capacity name) .fresh where
  admission := ⟨rfl, by decide⟩
  sequence_eq := rfl
  permitEpoch_eq := rfl
  opened_of_permits hpermits := absurd rfl hpermits
  content_eq hstage := by rcases hstage with h | h <;> cases h
  capacity_eq := rfl
  cycle_eq_zero := iff_of_true rfl rfl
  length_eq := rfl
  follows i s e hs := by simp [fresh] at hs

/-! ## Steps of the master -/

theorem forbid (h : Consistent c capacity r l) (hs : l.Allows c .forbid) :
    Consistent c capacity (r.step .forbid).2 (l.note .forbid (r.step .forbid).1) := by
  -- every cycle begun so far was permitted
  have hpermitted : l.permitted = l.cycle := by
    rcases hs with hstage | hstage
    · rw [Log.permitted, h.cycle_eq_zero.1 hstage]
      exact ite_self 0
    · rw [Log.permitted, if_pos hstage]
  have hsequence := h.sequence_eq
  have hpermitEpoch := h.permitEpoch_eq
  rw [hpermitted] at hsequence hpermitEpoch
  exact
    { admission := h.admission.advance
      sequence_eq := hsequence
      permitEpoch_eq := hpermitEpoch
      opened_of_permits := fun hpermits => absurd rfl hpermits
      content_eq := fun hstage => by rcases hstage with hs | hs <;> cases hs
      capacity_eq := h.capacity_eq
      cycle_eq_zero := iff_of_false (fun hstage => by cases hstage) (Nat.succ_ne_zero l.cycle)
      length_eq := h.length_eq
      follows := fun i s e hs he => (h.follows i s e hs he).forbid }

theorem write (h : Consistent c capacity r l) (hc : ∀ i, (c i).length ≤ capacity)
    {content : List UInt8} (hs : l.Allows c (.write content)) :
    Consistent c capacity (r.step (.write content)).2
      (l.note (.write content) (r.step (.write content)).1) := by
  obtain ⟨hstage, rfl⟩ := hs
  have hfits : (c l.cycle).length ≤ r.region.capacity := h.capacity_eq ▸ hc l.cycle
  have hnot : l.stage ≠ .opened := by rw [hstage]; decide
  have hpermitted : l.permitted = l.cycle - 1 := if_neg hnot
  have hsequence := h.sequence_eq
  have hpermitEpoch := h.permitEpoch_eq
  have hcycle : l.cycle ≠ 0 := h.cycle_ne_zero (by rw [hstage]; decide)
  rw [hpermitted] at hsequence hpermitEpoch
  rw [Room.step, Region.write, dif_pos hfits]
  exact
    { admission := h.admission
      sequence_eq := hsequence
      permitEpoch_eq := hpermitEpoch
      opened_of_permits := fun hpermits => absurd (h.opened_of_permits hpermits) hnot
      content_eq := fun _ => rfl
      capacity_eq := h.capacity_eq
      cycle_eq_zero := iff_of_false (fun hstage => by cases hstage) hcycle
      length_eq := h.length_eq
      follows := fun i s e hs he => (h.follows i s e hs he).of_stage hnot }

theorem permit (h : Consistent c capacity r l) (hs : l.Allows c .permit) :
    Consistent c capacity (r.step .permit).2 (l.note .permit (r.step .permit).1) := by
  have hstage : l.stage = .written := hs
  have hnot : l.stage ≠ .opened := by rw [hstage]; decide
  have hcycle : l.cycle ≠ 0 := h.cycle_ne_zero (by rw [hstage]; decide)
  have hsequence : r.region.sequence + 1 = UInt64.ofNat l.cycle := by
    rw [h.sequence_eq, Log.permitted, if_neg hnot, ← UInt64.ofNat_one, ← UInt64.ofNat_add,
      Nat.sub_add_cancel (Nat.pos_of_ne_zero hcycle)]
  have hpermitEpoch : r.region.epoch.toUInt64 =
      if l.cycle = 0 then Region.neverPermitted else (UInt32.ofNat l.cycle).toUInt64 := by
    rw [if_neg hcycle, h.epoch_eq]
  exact
    { admission := h.admission
      sequence_eq := hsequence
      permitEpoch_eq := hpermitEpoch
      opened_of_permits := fun _ => rfl
      content_eq := fun _ => h.content_eq (.inl hstage)
      capacity_eq := h.capacity_eq
      cycle_eq_zero := iff_of_false (fun hstage => by cases hstage) hcycle
      length_eq := h.length_eq
      follows := fun i s e hs he => (h.follows i s e hs he).of_stage hnot }

/-! ## Steps of readers -/

theorem join (h : Consistent c capacity r l) (hroom : l.joins + 1 < Admission.epochs)
    (forked : Bool) :
    Consistent c capacity (r.join forked).2
      { l with joins := l.joins + 1, readers := l.readers ++ [⟨l.cycle, [], none⟩] } := by
  obtain ⟨hepoch, hcounts⟩ := h.admission.register hroom
  have hnew : Attendance.Follows c l.cycle l.stage ⟨l.cycle, [], none⟩
      (Reader.join r.region).1 :=
    { consumed_eq := hepoch
      admitted_eq := rfl
      joined_le := Nat.le_refl _
      last_le := fun k hk => by cases hk
      opened_of_last := fun hlast => by cases hlast
      reading_eq := rfl
      last_of_reading := fun k hk => by cases hk
      of_mem_reads := fun x hx => by cases hx
      reads_chain := .nil
      joined_lt := fun hphase => by cases hphase }
  exact
    { admission := hcounts
      sequence_eq := h.sequence_eq
      permitEpoch_eq := h.permitEpoch_eq
      opened_of_permits := h.opened_of_permits
      content_eq := h.content_eq
      capacity_eq := h.capacity_eq
      cycle_eq_zero := h.cycle_eq_zero
      length_eq := by
        simp only [Room.join, List.length_append, h.length_eq, List.length_cons, List.length_nil]
      follows := by
        intro i s e hs he
        rw [Room.join] at hs
        by_cases hi : i < r.seats.length
        · rw [List.getElem?_append_left hi] at hs
          rw [List.getElem?_append_left (h.length_eq ▸ hi)] at he
          exact h.follows i s e hs he
        -- the new seat is the last one
        · have hlast : i = r.seats.length := by
            have := (List.getElem?_eq_some_iff.1 hs).1
            simp only [List.length_append, List.length_cons, List.length_nil] at this
            omega
          subst hlast
          rw [List.getElem?_concat_length] at hs
          rw [← h.length_eq, List.getElem?_concat_length] at he
          cases hs
          cases he
          exact hnew }

/-- A call of one reader, which may take permits but leaves the rest of the region to the master. -/
theorem reseat (h : Consistent c capacity r l) {i : Nat} {s : Seat} (hseat : r.seats[i]? = some s)
    (s' : Seat) (f : Attendance → Attendance)
    (hfollows : ∀ e : Attendance, e.Follows c l.cycle l.stage s.reader →
      (f e).Follows c l.cycle l.stage s'.reader)
    {region : Region} (hkept : r.region.KeptBy region) :
    Consistent c capacity { r with region := region, seats := r.seats.set i s' }
      { l with readers := l.readers.modify i f } where
  admission := hkept.admission_eq ▸ h.admission
  sequence_eq := hkept.sequence_eq.trans h.sequence_eq
  permitEpoch_eq := hkept.permitEpoch_eq.trans h.permitEpoch_eq
  opened_of_permits hne := h.opened_of_permits
    (Nat.ne_of_gt (Nat.lt_of_lt_of_le (Nat.pos_of_ne_zero hne) hkept.permits_le))
  content_eq hstage := hkept.content_eq.trans (h.content_eq hstage)
  capacity_eq := hkept.capacity_eq.trans h.capacity_eq
  cycle_eq_zero := h.cycle_eq_zero
  length_eq := by simp only [List.length_modify, List.length_set, h.length_eq]
  follows j t e ht he := by
    by_cases hij : i = j
    · subst hij
      obtain ⟨hi, -⟩ := List.getElem?_eq_some_iff.1 hseat
      rw [List.getElem?_set_self hi] at ht
      rw [List.getElem?_modify_eq] at he
      obtain ⟨e₀, he₀, rfl⟩ := Option.map_eq_some_iff.1 he
      cases ht
      exact hfollows e₀ (h.follows i s e₀ hseat he₀)
    · rw [List.getElem?_set_ne hij] at ht
      rw [List.getElem?_modify_ne _ _ hij] at he
      exact h.follows j t e ht he

/-- A call of one reader that leaves its attendance as it is. -/
theorem reseat_same (h : Consistent c capacity r l) {i : Nat} {s : Seat}
    (hseat : r.seats[i]? = some s) (s' : Seat)
    (hfollows : ∀ e : Attendance, e.Follows c l.cycle l.stage s.reader →
      e.Follows c l.cycle l.stage s'.reader)
    {region : Region} (hkept : r.region.KeptBy region) :
    Consistent c capacity { r with region := region, seats := r.seats.set i s' } l := by
  have hsame := h.reseat hseat s' id hfollows hkept
  rw [List.modify_id] at hsame
  exact hsame

theorem wait (h : Consistent c capacity r l) {i : Nat} {s : Seat}
    (hseat : r.seats[i]? = some s) :
    Consistent c capacity (r.wait i s).2 (l.note (.wait i) (r.wait i s).1) := by
  have hwaited := s.reader.wait_waited r.region
  rw [Room.wait]
  generalize s.reader.wait r.region = answer at hwaited ⊢
  cases hwaited with
  | asleep left hleft hkept hepoch =>
      exact h.reseat_same hseat { s with reader := { s.reader with phase := .forEpoch } }
        (fun e he => he.of_phase fun hphase => by cases hphase)
        ⟨rfl, rfl, rfl, hleft, rfl, rfl⟩
  | starved hpassed hpermits =>
      refine h.reseat_same hseat { s with reader := { s.reader with phase := .forPermit } }
        (fun e he => he.of_phase fun _ hlast => ?_) ⟨rfl, rfl, rfl, Nat.zero_le _, rfl, rfl⟩
      rw [h.epoch_eq] at hpassed
      rcases hpassed with hphase | ⟨hepoch, hlag⟩
      · exact he.joined_lt hphase hlast
      · exact (he.of_passed (.inr hepoch) hlag).1
  | lagged left hleft e he =>
      exact h.reseat_same hseat
        { s with reader := { s.reader with phase := .idle }, fault := some e }
        (fun e he => he.of_phase fun hphase => by cases hphase)
        ⟨rfl, rfl, rfl, hleft, rfl, rfl⟩
  | served left hleft hpassed hopen hlag =>
      have hopened := h.isOpen_iff.1 hopen
      rw [h.epoch_eq] at hpassed hlag
      refine h.reseat hseat { s with reader := s.reader.served r.region, fault := none }
        (fun e => { e with
          reads := (l.cycle, r.region.content) :: e.reads, reading := some l.cycle })
        (fun e he => ?_) ⟨rfl, rfl, rfl, ?_, rfl, rfl⟩
      · obtain ⟨hjoined, hnext⟩ := he.of_passed hpassed hlag
        rw [h.content_eq (.inr hopened)]
        exact he.served hopened h.epoch_eq (h.sequence_of_opened hopened) hjoined hnext
      · rw [hleft]
        exact Nat.le_succ left

theorem finish (h : Consistent c capacity r l) {i : Nat} {s : Seat}
    (hseat : r.seats[i]? = some s) :
    Consistent c capacity (r.finish i s).2 (l.note (.done i) (r.finish i s).1) := by
  have hconfirm : ∀ fault readDone, Consistent c capacity
      { r with
        region := { r.region with readDone := readDone }
        seats := r.seats.set i
          { s with reader := { s.reader with reading := none }, fault := fault } }
      { l with readers := l.readers.modify i fun e => { e with reading := none } } :=
    fun fault readDone =>
      h.reseat hseat _ _ (fun e he => he.confirm) ⟨rfl, rfl, rfl, Nat.le_refl _, rfl, rfl⟩
  rw [Room.finish, Reader.finish]
  cases hreading : s.reader.reading with
  | none =>
      have hself : { s.reader with reading := none } = s.reader := by rw [← hreading]
      have hnone := hconfirm (some .notReading) r.region.readDone
      rw [hself] at hnone
      exact hnone
  | some mark =>
      dsimp only
      by_cases hcurrent :
          r.region.sequence = mark.sequence ∧ r.region.epoch = mark.epoch
      · rw [if_pos hcurrent]
        exact hconfirm none (r.region.readDone + 1)
      · rw [if_neg hcurrent]
        exact hconfirm _ r.region.readDone

theorem seat (h : Consistent c capacity r l) {i : Nat} {s : Seat} (hseat : r.seats[i]? = some s)
    (s' : Seat) (hreader : s'.reader = s.reader) :
    Consistent c capacity { r with seats := r.seats.set i s' } l :=
  h.reseat_same hseat s' (fun _ he => hreader ▸ he) (.refl r.region)

theorem depart (h : Consistent c capacity r l) {i : Nat} {s : Seat}
    (hseat : r.seats[i]? = some s) (state : SeatState) :
    Consistent c capacity (r.depart i s state).2 l :=
  h.reseat_same hseat { s with state := state } (fun _ he => he)
    ⟨rfl, rfl, rfl, Nat.le_refl _, rfl, rfl⟩

/-- A call on a seat that is not taken does nothing. -/
theorem onSeat (h : Consistent c capacity r l) (i : Nat) (call : Seat → Reply × Room)
    (note : Reply → Log) (hnothing : note .nothing = l)
    (hcall : ∀ s, r.seats[i]? = some s → Consistent c capacity (call s).2 (note (call s).1)) :
    Consistent c capacity (r.onSeat i call).2 (note (r.onSeat i call).1) := by
  rw [Room.onSeat]
  cases hseat : r.seats[i]? with
  | none =>
      exact hnothing.symm ▸ h
  | some s =>
      dsimp only
      split
      next => exact hcall s hseat
      next => exact hnothing.symm ▸ h

theorem step (h : Consistent c capacity r l) (hc : ∀ i, (c i).length ≤ capacity) (s : Step)
    (hs : l.Allows c s) : Consistent c capacity (r.step s).2 (l.note s (r.step s).1) := by
  cases s with
  | forbid => exact h.forbid hs
  | write content => exact h.write hc hs
  | permit => exact h.permit hs
  | broadcast content => exact hs.elim
  | subscribe => exact h.join hs false
  | spawn => exact h.join hs true
  | wait i => exact h.onSeat i (r.wait i) (l.note (.wait i)) rfl fun s => h.wait
  | done i => exact h.onSeat i (r.finish i) (l.note (.done i)) rfl fun s => h.finish
  | content i =>
      exact h.onSeat i (r.view i) (fun _ => l) rfl fun s hseat => h.seat hseat _ rfl
  | receive i => exact hs.elim
  | leave i => exact h.onSeat i _ (fun _ => l) rfl fun s hseat => h.depart hseat _
  | exit i => exact h.onSeat i _ (fun _ => l) rfl fun s hseat => h.depart hseat _
  | panic i => exact h.onSeat i _ (fun _ => l) rfl fun s hseat => h.depart hseat _
  | kill i => exact h.onSeat i _ (fun _ => l) rfl fun s hseat => h.seat hseat _ rfl

/-! ## What a reader gets to see -/

/-- A wait that is answered with content: the cycle is open, and the reader joined before it. -/
theorem of_content (h : Consistent c capacity r l) {i : Nat} {s : Seat} {e : Attendance}
    (he : e.Follows c l.cycle l.stage s.reader) {bytes : List UInt8}
    (hanswer : (r.wait i s).1 = .content bytes) :
    l.stage = .opened ∧ bytes = c l.cycle ∧ e.joined < l.cycle
      ∧ ∀ k, e.last = some k → Next k l.cycle := by
  have hwaited := s.reader.wait_waited r.region
  rw [Room.wait] at hanswer
  generalize s.reader.wait r.region = answer at hwaited hanswer
  cases hwaited with
  | asleep left hleft hkept hepoch => cases hanswer
  | starved hpassed hpermits => cases hanswer
  | lagged left hleft e he => cases hanswer
  | served left hleft hpassed hopen hlag =>
      have hopened := h.isOpen_iff.1 hopen
      rw [h.epoch_eq] at hpassed hlag
      cases hanswer
      exact ⟨hopened, h.content_eq (.inr hopened), he.of_passed hpassed hlag⟩

/-- A wait of an admitted reader that missed a cycle fails, unless it still waits for a permit. -/
theorem wait_of_late (h : Consistent c capacity r l) {i : Nat} {s : Seat} {e : Attendance}
    (he : e.Follows c l.cycle l.stage s.reader) {k : Nat} (hlast : e.last = some k)
    (hlate : k + 2 ≤ l.cycle) (hnear : l.cycle < k + Admission.epochs) :
    (r.wait i s).1 = .failed (.lagged (UInt32.ofNat k) (UInt32.ofNat l.cycle))
      ∨ (r.wait i s).1 = .blocked ∧ s.reader.phase = .forPermit ∧ r.region.permits = 0 := by
  have hlagged := he.lag?_eq hlast hlate hnear
  have hwaited := s.reader.wait_waited r.region
  rw [Room.wait]
  generalize s.reader.wait r.region = answer at hwaited ⊢
  cases hwaited with
  | asleep left hleft hkept hepoch =>
      rw [h.epoch_eq, he.consumed_eq, hlast] at hepoch
      have hmod := Admission.uint32_ofNat_inj.1 hepoch
      simp only [Option.getD_some, Admission.epochs] at *
      omega
  | starved hpassed hpermits =>
      rw [h.epoch_eq, hlagged] at hpassed
      have hphase : s.reader.phase = .forPermit := by
        rcases hpassed with hphase | ⟨-, hnone⟩
        · exact hphase
        · cases hnone
      refine .inr ⟨rfl, hphase, ?_⟩
      rcases hpermits with hzero | hclosed
      · exact hzero
      · apply h.permits_of_closed
        intro hopened
        rw [h.isOpen_iff.2 hopened] at hclosed
        cases hclosed
  | lagged left hleft e he =>
      rw [h.epoch_eq, hlagged] at he
      cases he
      exact .inl rfl
  | served left hleft hpassed hopen hlag =>
      rw [h.epoch_eq, hlagged] at hlag
      cases hlag

/-- The words of the region are those that a reader copied only while a cycle is open, and then that
cycle is any number of turns of the sequence later. -/
theorem of_mark (h : Consistent c capacity r l) {s : Seat} {e : Attendance}
    (he : e.Follows c l.cycle l.stage s.reader) {k : Nat} (hreading : e.reading = some k)
    (hsequence : r.region.sequence = UInt64.ofNat k) (hepoch : r.region.epoch = UInt32.ofNat k) :
    l.stage = .opened
      ∧ k % (Admission.epochs * Admission.epochs)
        = l.cycle % (Admission.epochs * Admission.epochs) := by
  rcases he.last_le k (he.last_of_reading k hreading) with ⟨hjoined, hle⟩
  have hpos : 0 < l.cycle := Nat.zero_lt_of_lt (Nat.lt_of_lt_of_le hjoined hle)
  rw [h.epoch_eq, Admission.uint32_ofNat_inj] at hepoch
  rw [h.sequence_eq, Admission.uint64_ofNat_inj, Log.permitted] at hsequence
  by_cases hopened : l.stage = .opened
  · rw [if_pos hopened] at hsequence
    exact ⟨hopened, hsequence.symm⟩
  -- the sequence alone may be `k` before the next permit, but not with this epoch
  · rw [if_neg hopened] at hsequence
    simp only [Admission.epochs] at *
    omega

/-- A cycle is confirmed exactly if no other one was begun since. -/
theorem finish_of_reading (h : Consistent c capacity r l) {i : Nat} {s : Seat} {e : Attendance}
    (he : e.Follows c l.cycle l.stage s.reader) {k : Nat} (hreading : e.reading = some k)
    (hnear : l.cycle < k + Admission.epochs * Admission.epochs) :
    (r.finish i s).1 =
      if l.cycle = k then .done
      else .failed (.tornRead (UInt64.ofNat k) (UInt32.ofNat k) r.region.sequence
        (UInt32.ofNat l.cycle)) := by
  have hlast := he.last_of_reading k hreading
  have hmark := he.reading_eq
  rw [hreading] at hmark
  rw [Room.finish, Reader.finish, hmark]
  dsimp only [Option.map_some]
  by_cases hcurrent : l.cycle = k
  · subst hcurrent
    have hopened := he.opened_of_last hlast
    rw [if_pos ⟨h.sequence_of_opened hopened, h.epoch_eq⟩, if_pos rfl]
  · have hgone : ¬(r.region.sequence = UInt64.ofNat k ∧ r.region.epoch = UInt32.ofNat k) := by
      rintro ⟨hsequence, hepoch⟩
      have hle := (he.last_le k hlast).2
      have hturn := (h.of_mark he hreading hsequence hepoch).2
      simp only [Admission.epochs] at *
      omega
    rw [if_neg hgone, if_neg hcurrent, h.epoch_eq]

theorem finish_of_not_reading {i : Nat} {s : Seat} {e : Attendance}
    (he : e.Follows c l.cycle l.stage s.reader) (hreading : e.reading = none) :
    (r.finish i s).1 = .failed .notReading := by
  have hmark := he.reading_eq
  rw [hreading] at hmark
  rw [Room.finish, Reader.finish, hmark]
  rfl

end Consistent

theorem Scheduled.consistent {c : Nat → List UInt8} {capacity : Nat} {r : Room} {l : Log}
    (h : Scheduled c capacity r l) (hc : ∀ i, (c i).length ≤ capacity) :
    Consistent c capacity r l := by
  induction h with
  | start name =>
      exact .start c capacity name
  | step h s hs ih =>
      exact ih.step hc s hs

/-- Steps made of others do not leave the schedule: a broadcast is the next cycle. -/
theorem Scheduled.broadcast {c : Nat → List UInt8} {capacity : Nat} {r : Room} {l : Log}
    (h : Scheduled c capacity r l) (hc : ∀ i, (c i).length ≤ capacity) (hs : l.Allows c .forbid) :
    Scheduled c capacity (r.step (.broadcast (c (l.cycle + 1)))).2
      { l with cycle := l.cycle + 1, stage := .opened, joins := 0 } := by
  have hfits : (c (l.cycle + 1)).length ≤ r.region.capacity :=
    (h.consistent hc).capacity_eq ▸ hc (l.cycle + 1)
  rw [step_broadcast r hfits]
  exact ((h.step .forbid hs).step (.write (c (l.cycle + 1))) ⟨rfl, rfl⟩).step .permit rfl

/-- Nor does a reader that receives. -/
theorem Scheduled.receive {c : Nat → List UInt8} {capacity : Nat} {r : Room} {l : Log}
    (h : Scheduled c capacity r l) (i : Nat) :
    ∃ l', Scheduled c capacity (r.step (.receive i)).2 l' := by
  have hwait := h.step (.wait i) trivial
  rw [step_receive]
  generalize r.step (.wait i) = answer at hwait ⊢
  obtain ⟨reply, r'⟩ := answer
  cases reply with
  | content bytes => exact ⟨_, hwait.step (.done i) trivial⟩
  | nothing => exact ⟨_, hwait⟩
  | joined j => exact ⟨_, hwait⟩
  | blocked => exact ⟨_, hwait⟩
  | done => exact ⟨_, hwait⟩
  | failed e => exact ⟨_, hwait⟩

/-- Lock-step safety.  Content comes only while a cycle is open that began after the reader joined;
it is the content of that cycle, and the cycle is the next one after the one read last.  So what a
reader was given so far are the contents of consecutive cycles, and once it missed one it fails.  A
cycle is confirmed, once, as long as the next one is not begun.

An epoch is a word of 32 bits: cycles are told apart as long as fewer than `Admission.epochs` of
them lie between two reads of a reader. -/
theorem Scheduled.lockstep {c : Nat → List UInt8} {capacity : Nat} {r : Room} {l : Log}
    (h : Scheduled c capacity r l) (hc : ∀ i, (c i).length ≤ capacity) {i : Nat} {s : Seat}
    (hseat : r.seats[i]? = some s) (htaken : s.state = .taken) :
    ∃ e : Attendance, l.readers[i]? = some e
      ∧ (∀ bytes, (r.step (.wait i)).1 = .content bytes →
          l.stage = .opened ∧ bytes = c l.cycle ∧ e.joined < l.cycle
          ∧ ∀ k, e.last = some k → Next k l.cycle)
      ∧ (∀ x ∈ e.reads, e.joined < x.1 ∧ x.2 = c x.1)
      ∧ e.reads.IsChain (fun later earlier => Next earlier.1 later.1)
      ∧ (∀ k, e.last = some k → k + 2 ≤ l.cycle → l.cycle < k + Admission.epochs →
          (r.step (.wait i)).1 = .failed (.lagged (UInt32.ofNat k) (UInt32.ofNat l.cycle))
          ∨ (r.step (.wait i)).1 = .blocked ∧ s.reader.phase = .forPermit
            ∧ r.region.permits = 0)
      ∧ (∀ k, e.reading = some k → l.cycle < k + Admission.epochs * Admission.epochs →
          (r.step (.done i)).1 =
            if l.cycle = k then .done
            else .failed (.tornRead (UInt64.ofNat k) (UInt32.ofNat k) r.region.sequence
              (UInt32.ofNat l.cycle)))
      ∧ (e.reading = none → (r.step (.done i)).1 = .failed .notReading) := by
  have hconsistent := h.consistent hc
  have hi : i < l.readers.length := by
    rw [hconsistent.length_eq]
    exact (List.getElem?_eq_some_iff.1 hseat).1
  have he := hconsistent.follows i s _ hseat (List.getElem?_eq_getElem hi)
  have hwait : r.step (.wait i) = r.wait i s := onSeat_of_taken hseat htaken _
  have hdone : r.step (.done i) = r.finish i s := onSeat_of_taken hseat htaken _
  refine ⟨l.readers[i], List.getElem?_eq_getElem hi, ?_, he.of_mem_reads, he.reads_chain, ?_, ?_,
    ?_⟩
  · intro bytes hbytes
    rw [hwait] at hbytes
    exact hconsistent.of_content he hbytes
  · intro k hk hlate hnear
    rw [hwait]
    exact hconsistent.wait_of_late he hk hlate hnear
  · intro k hk hnear
    rw [hdone]
    exact hconsistent.finish_of_reading he hk hnear
  · intro hnone
    rw [hdone]
    exact Consistent.finish_of_not_reading he hnone

/-- A reader that read the first cycle waits for the second, without having confirmed the first. -/
theorem Scheduled.lockstep_secondCycle :
    ∃ r l, Scheduled (fun i => [UInt8.ofNat i]) 4 r l ∧ l.readers = [⟨0, [(1, [1])], some 1⟩]
      ∧ (r.step (.wait 0)).1 = .content [2] ∧ l.stage = .opened ∧ Next 1 l.cycle
      ∧ (r.step (.done 0)).1 = .failed (.tornRead 1 1 2 2) := by
  have hstart : Scheduled (fun i => [UInt8.ofNat i]) 4 (Room.fresh 4) .fresh := .start _
  have hfirst := (((hstart.step .subscribe (Nat.lt_of_sub_eq_succ rfl)).step .forbid
    (.inl rfl)).step (.write [1]) ⟨rfl, rfl⟩).step .permit rfl
  have h := (((hfirst.step (.wait 0) trivial).step .forbid (.inr rfl)).step
    (.write [2]) ⟨rfl, rfl⟩).step .permit rfl
  obtain ⟨e, he, hwait, -, -, -, hdone, -⟩ :=
    h.lockstep (i := 0) (fun _ => Nat.le_of_ble_eq_true rfl) rfl rfl
  have hentry : e = ⟨0, [(1, [1])], some 1⟩ := Option.some.inj (he.symm.trans rfl)
  subst hentry
  obtain ⟨hopened, -, -, hnext⟩ := hwait [2] rfl
  exact ⟨_, _, h, rfl, rfl, hopened, hnext 1 rfl, hdone 1 rfl (by decide)⟩

/-- Beyond its bounds a reader is told wrong.  As many visits as there are epochs tear the copy of the
cycle that is still open.  A reader that missed as many cycles as there are epochs is let in, and not to
the cycle after the one it read.  When as many cycles went by as there are sequence numbers, a copy of
the first of them is confirmed. -/
theorem Scheduled.lockstep_overrun :
    let reading := [.subscribe] ++ cycles 1 ++ [.wait 0]
    (((fresh 4).run (reading ++ visits 1 Admission.epochs)).step (.done 0)).1
        = .failed (.tornRead 1 1 1 2)
      ∧ (((fresh 4).run (reading ++ cycles (Admission.epochs + 1))).step (.wait 0)).1 = .content []
      ∧ (((fresh 4).run (reading ++ cycles (Admission.epochs * Admission.epochs))).step (.done 0)).1
        = .done := by
  intro reading
  let seat : Seat := ⟨⟨1, true, some ⟨1, 1⟩, [], .idle⟩, false, .taken, none⟩
  have hseat : ((fresh 4).run reading).seats[0]? = some seat := rfl
  have hholds : Holds 1 seat.reader := ⟨rfl, rfl, rfl, rfl⟩
  have hquiet : Quiet 1 ((fresh 4).run reading) := ⟨⟨rfl, by decide⟩, rfl, rfl, rfl⟩
  rw [run_append _ reading, run_append _ reading, run_append _ reading]
  exact ⟨hquiet.finish_of_visits hseat rfl hholds rfl,
    hquiet.wait_of_cycles hseat rfl hholds (by decide) (Nat.mod_self _),
    hquiet.finish_of_cycles hseat rfl hholds (Nat.mod_self _)⟩

end Room
end Telemetry
