import Telemetry.Proofs.Broadcast.Schedule
import Telemetry.Proofs.Broadcast.Waiting

/-!
# Overrun — when a counter comes round

Epochs are counted in 32 bits, and so are the registrations of a cycle, in the low half of the same word.
Two kinds of long runs bring them round: readers that register and leave at once, while a cycle is open
(`Room.visits`), and whole cycles in which nobody comes or goes (`Room.cycles`).  As many visits as there
are epochs carry into the epoch (`Admission.Counts.carry`), and the room stays as it is otherwise
(`Room.run_visits`).  Cycles leave the readers alone, and count on (`Room.Quiet.run_cycles`).
-/

namespace Telemetry

/-- Registrations beyond the low half of the word are added to the epoch. -/
theorem Admission.Counts.carry {a : Admission} {cycle n : Nat} (h : a.Counts cycle 0)
    (hn : n = epochs) : Admission.Counts ⟨a.word + UInt64.ofNat n⟩ (cycle + 1) 0 := by
  refine ⟨?_, by decide⟩
  have hword := h.word_eq
  rw [UInt64.toNat_add, hword, UInt64.toNat_ofNat', hn]
  simp only [epochs]
  omega

namespace Room

theorem run_append (r : Room) (steps steps' : List Step) :
    r.run (steps ++ steps') = (r.run steps).run steps' :=
  List.foldl_append

/-! ## Visits -/

/-- Readers that register and leave at once, on the seats from `first` on. -/
def visits (first : Nat) : Nat → List Step
  | 0 => []
  | n + 1 => visits first n ++ [.subscribe, .leave (first + n)]

theorem run_visit (r : Room) :
    ∃ seat : Seat, r.run [.subscribe, .leave r.seats.length]
      = { r with
          region :=
            { r.region with
              admission := r.region.admission.register.2
              departed := r.region.departed + 1 }
          seats := r.seats ++ [seat] } := by
  have hseat : (r.step .subscribe).2.seats[r.seats.length]?
      = some ⟨(Reader.join r.region).1, false, .taken, none⟩ := List.getElem?_concat_length
  refine ⟨⟨(Reader.join r.region).1, false, .left, none⟩, ?_⟩
  change ((r.step .subscribe).2.step (.leave r.seats.length)).2 = _
  -- the seat that is left is looked up in the room as the reader found it
  generalize hjoined : (r.step .subscribe).2 = joined at hseat ⊢
  rw [Room.step, onSeat_of_taken hseat rfl, ← hjoined]
  simp only [Room.step, Room.join, Room.depart, Reader.join, Region.register, Region.depart]
  simp

/-- Visits are counted, and change nothing else. -/
theorem run_visits (r : Room) (n : Nat) :
    ∃ left : List Seat, left.length = n
      ∧ r.run (visits r.seats.length n)
        = { r with
            region :=
              { r.region with
                admission := ⟨r.region.admission.word + UInt64.ofNat n⟩
                departed := r.region.departed + UInt64.ofNat n }
            seats := r.seats ++ left } := by
  induction n with
  | zero =>
      refine ⟨[], rfl, ?_⟩
      simp [visits, run]
  | succ n ih =>
      rcases ih with ⟨left, hlength, hrun⟩
      have hseats : r.seats.length + n = (r.run (visits r.seats.length n)).seats.length := by
        rw [hrun, List.length_append, hlength]
      rcases (r.run (visits r.seats.length n)).run_visit with ⟨seat, hvisit⟩
      refine ⟨left ++ [seat], by rw [List.length_append, hlength]; rfl, ?_⟩
      rw [visits, run_append, hseats, hvisit, hrun]
      simp only [Admission.register, UInt64.ofNat_add, UInt64.ofNat_one, UInt64.add_assoc,
        List.append_assoc]

/-! ## Registrations -/

/-- Readers that register are counted, and the master does not change. -/
theorem run_subscribes {r : Room} {cycle : Nat} (hcounts : r.region.admission.Counts cycle 0)
    {n : Nat} (hroom : n < Admission.epochs) :
    (r.run (List.replicate n .subscribe)).region.admission.Counts cycle n
      ∧ (r.run (List.replicate n .subscribe)).region.departed = r.region.departed
      ∧ (r.run (List.replicate n .subscribe)).master = r.master := by
  induction n with
  | zero => exact ⟨hcounts, rfl, rfl⟩
  | succ n ih =>
      rcases ih (Nat.lt_of_succ_lt hroom) with ⟨hbefore, hdeparted, hmaster⟩
      rw [List.replicate_succ', run_append]
      exact ⟨(hbefore.register hroom).2, hdeparted, hmaster⟩

/-! ## Cycles -/

def cycles : Nat → List Step
  | 0 => []
  | n + 1 => cycles n ++ [.forbid, .write [], .permit]

theorem cycles_add (m n : Nat) : cycles (m + n) = cycles m ++ cycles n := by
  induction n with
  | zero => exact (List.append_nil _).symm
  | succ n ih => rw [← Nat.add_assoc, cycles, cycles, ih, List.append_assoc]

/-- Without processes to reap and readers that left, a cycle begins with those that joined. -/
theorem forbid_of_nobody {r : Room} {cycle joins : Nat}
    (hcounts : r.region.admission.Counts cycle joins) (hdeparted : r.region.departed = 0)
    (hchildren : r.master.children = []) :
    (r.step .forbid).2
      = { r with
          master := { r.master with live := r.master.live + joins }
          region :=
            { r.region with
              admission := r.region.admission.advance.2
              departed := 0
              wait := r.region.wait.drain.2
              readDone := 0 } } := by
  have hpending : r.region.admission.advance.1.toNat = joins := hcounts.pending_eq
  rw [Room.step, Master.forbidRead, Master.reap]
  simp [hpending, hdeparted, hchildren]

theorem step_write_nil (r : Room) :
    (r.step (.write [])).2
      = { r with region := { r.region with content := [], content_fits := Nat.zero_le _ } } := rfl

theorem permit_of_none {r : Room} (h : r.region.permits = 0) :
    (r.step .permit).2
      = { r with
          region :=
            { r.region with
              sequence := r.region.sequence + 1
              permitEpoch := r.region.epoch.toUInt64
              wait := { r.region.wait with count := min r.master.live Semaphore.maxCount } } } := by
  rw [Room.step, r.master.permitRead_eq h]

/-- The permits of more readers than the semaphore counts are not all posted. -/
theorem permit_of_crowd {r : Room} {cycle n : Nat} (hcounts : r.region.admission.Counts cycle 0)
    (hdeparted : r.region.departed = 0) (hmaster : r.master = Master.fresh)
    (hroom : n < Admission.epochs) (hmany : Semaphore.maxCount < n) :
    let r' := r.run (List.replicate n .subscribe ++ [.forbid, .write []])
    r'.master.live = n
      ∧ (r'.step .permit).1 = .failed (.semaphore "sem_post" r'.region.wait.name)
      ∧ (r'.step .permit).2.region.permits = Semaphore.maxCount := by
  intro r'
  rcases run_subscribes hcounts hroom with ⟨hjoined, hdeparted', hmaster'⟩
  have hforbid := forbid_of_nobody hjoined (hdeparted'.trans hdeparted)
    (congrArg Master.children (hmaster'.trans hmaster))
  have hr : r' = (((r.run (List.replicate n .subscribe)).step .forbid).2.step (.write [])).2 :=
    run_append r (List.replicate n .subscribe) [.forbid, .write []]
  have hlive : r'.master.live = n := by
    rw [hr, hforbid, step_write_nil, hmaster', hmaster]
    exact Nat.zero_add n
  have hnone : r'.region.permits = 0 := by
    rw [hr, hforbid, step_write_nil]
    rfl
  have hmin : min r'.master.live Semaphore.maxCount = Semaphore.maxCount :=
    Nat.min_eq_right (hlive ▸ Nat.le_of_lt hmany)
  refine ⟨hlive, ?_, ?_⟩
  · rw [Room.step, r'.master.permitRead_eq hnone, hlive, if_neg (Nat.not_le.2 hmany)]
    rfl
  · rw [permit_of_none hnone]
    exact hmin

/-- So many cycles were begun and permitted, and nobody came or went since the last one was begun. -/
structure Quiet (cycle : Nat) (r : Room) : Prop where
  counts : r.region.admission.Counts cycle 0
  sequence_eq : r.region.sequence = UInt64.ofNat cycle
  departed_eq : r.region.departed = 0
  children_eq : r.master.children = []

/-- A cycle of such a room is open, and none of its permits was taken. -/
structure Untouched (cycle : Nat) (r : Room) : Prop extends Quiet cycle r where
  isOpen : r.region.isOpen = true
  content_eq : r.region.content = []
  permits_eq : r.region.permits = min r.master.live Semaphore.maxCount

namespace Quiet

variable {r : Room} {cycle : Nat}

theorem run_cycle (h : Quiet cycle r) :
    Untouched (cycle + 1) (r.run [.forbid, .write [], .permit])
      ∧ (r.run [.forbid, .write [], .permit]).master = r.master
      ∧ (r.run [.forbid, .write [], .permit]).seats = r.seats := by
  have hforbid := forbid_of_nobody h.counts h.departed_eq h.children_eq
  change Untouched _ (((r.step .forbid).2.step (.write [])).2.step .permit).2
    ∧ (((r.step .forbid).2.step (.write [])).2.step .permit).2.master = r.master
    ∧ (((r.step .forbid).2.step (.write [])).2.step .permit).2.seats = r.seats
  rw [hforbid, step_write_nil, permit_of_none rfl]
  refine ⟨?_, rfl, rfl⟩
  exact
    { counts := h.counts.advance
      sequence_eq := by
        rw [UInt64.ofNat_add, ← h.sequence_eq]
        rfl
      departed_eq := rfl
      children_eq := h.children_eq
      isOpen := beq_self_eq_true _
      content_eq := rfl
      permits_eq := rfl }

/-- Cycle after cycle leaves the readers alone. -/
theorem run_cycles (h : Quiet cycle r) (n : Nat) :
    Quiet (cycle + n) (r.run (cycles n))
      ∧ (r.run (cycles n)).master = r.master
      ∧ (r.run (cycles n)).seats = r.seats := by
  induction n with
  | zero => exact ⟨h, rfl, rfl⟩
  | succ n ih =>
      rcases ih with ⟨hquiet, hmaster, hseats⟩
      rcases hquiet.run_cycle with ⟨hnext, hmaster', hseats'⟩
      rw [cycles, run_append]
      exact ⟨hnext.toQuiet, hmaster'.trans hmaster, hseats'.trans hseats⟩

/-- The last of the cycles is open, with all of its permits. -/
theorem run_cycles_succ (h : Quiet cycle r) (n : Nat) :
    Untouched (cycle + n + 1) (r.run (cycles (n + 1)))
      ∧ (r.run (cycles (n + 1))).master = r.master
      ∧ (r.run (cycles (n + 1))).seats = r.seats := by
  rcases h.run_cycles n with ⟨hquiet, hmaster, hseats⟩
  rcases hquiet.run_cycle with ⟨hlast, hmaster', hseats'⟩
  rw [cycles, run_append]
  exact ⟨hlast, hmaster'.trans hmaster, hseats'.trans hseats⟩

end Quiet

/-! ## What readers are told -/

/-- A reader that read a cycle, and neither confirmed its copy nor waits for another. -/
structure Holds (cycle : Nat) (r : Reader) : Prop where
  consumed_eq : r.consumed = UInt32.ofNat cycle
  admitted_eq : r.admitted = true
  reading_eq : r.reading = some ⟨UInt64.ofNat cycle, UInt32.ofNat cycle⟩
  phase_eq : r.phase = .idle

/-- A reader that goes for a permit of a closed cycle throws all of them away. -/
theorem wait_of_closed {r : Room} {i : Nat} {s : Seat} (hseat : r.seats[i]? = some s)
    (htaken : s.state = .taken) (hclosed : r.region.isOpen = false)
    (hepoch : r.region.epoch ≠ s.reader.consumed) (hlag : s.reader.lag? r.region.epoch = none) :
    r.step (.wait i)
      = (.blocked, r.reseat i s { s.reader with phase := .forPermit } s.fault
          (r.region.withPermits 0)) := by
  have hwaited := s.reader.wait_waited r.region
  rw [Room.step, onSeat_of_taken hseat htaken, Room.wait]
  generalize s.reader.wait r.region = answer at hwaited ⊢
  cases hwaited with
  | asleep left hleft hkept hsame => exact absurd hsame hepoch
  | starved hpassed hpermits => rfl
  | lagged left hleft e he =>
      rw [hlag] at he
      cases he
  | served left hleft hpassed hopen hnone =>
      rw [hclosed] at hopen
      cases hopen

theorem wait_of_asleep {r : Room} {i : Nat} {s : Seat} (hseat : r.seats[i]? = some s)
    (htaken : s.state = .taken) (hphase : s.reader.phase = .idle)
    (hepoch : r.region.epoch = s.reader.consumed) : (r.step (.wait i)).1 = .blocked := by
  rw [Room.step, onSeat_of_taken hseat htaken, Room.wait, Reader.wait, hphase]
  dsimp only
  rw [if_pos hepoch]

namespace Quiet

variable {r : Room} {cycle i : Nat} {s : Seat}

-- the number of visits is a variable below, since a run of that length must not be unfolded

/-- As many visits as there are epochs advance the epoch, and nothing else that readers look at. -/
theorem carried_of_visits (h : Quiet cycle r) {n : Nat} (hn : n = Admission.epochs) :
    (r.run (visits r.seats.length n)).region.epoch = UInt32.ofNat cycle + 1
      ∧ (r.run (visits r.seats.length n)).region.sequence = UInt64.ofNat cycle
      ∧ (r.run (visits r.seats.length n)).region.permitEpoch = r.region.permitEpoch
      ∧ (r.run (visits r.seats.length n)).region.permits = r.region.permits
      ∧ ∀ (k : Nat) (t : Seat), r.seats[k]? = some t →
          (r.run (visits r.seats.length n)).seats[k]? = some t := by
  rcases r.run_visits n with ⟨left, -, hrun⟩
  have hepoch := (h.counts.carry hn).epoch_eq
  rw [UInt32.ofNat_add, UInt32.ofNat_one] at hepoch
  rw [hrun]
  refine ⟨hepoch, h.sequence_eq, rfl, rfl, fun k t hk => ?_⟩
  exact (List.getElem?_append_left (List.getElem?_eq_some_iff.1 hk).1).trans hk

/-- So the copies of the open cycle are torn. -/
theorem finish_of_visits (h : Quiet cycle r) (hseat : r.seats[i]? = some s)
    (htaken : s.state = .taken) (hholds : Holds cycle s.reader) {n : Nat}
    (hn : n = Admission.epochs) :
    ((r.run (visits r.seats.length n)).step (.done i)).1
      = .failed (.tornRead (UInt64.ofNat cycle) (UInt32.ofNat cycle) (UInt64.ofNat cycle)
          (UInt32.ofNat cycle + 1)) := by
  rcases h.carried_of_visits hn with ⟨hepoch, hsequence, -, -, hseats⟩
  have hnext : UInt32.ofNat cycle + 1 ≠ UInt32.ofNat cycle :=
    mt UInt32.add_eq_left.1 (by decide)
  rw [Room.step, onSeat_of_taken (hseats i s hseat) htaken, Room.finish, Reader.finish,
    hholds.reading_eq]
  dsimp only
  rw [hsequence, hepoch, if_neg fun hcurrent => hnext hcurrent.2]

/-- A reader that missed as many cycles as there are epochs is let in, as if it had missed none. -/
theorem wait_of_cycles (h : Quiet cycle r) (hseat : r.seats[i]? = some s)
    (htaken : s.state = .taken) (hholds : Holds cycle s.reader) (hlive : 0 < r.master.live)
    {n : Nat} (hn : n % Admission.epochs = 0) :
    ((r.run (cycles (n + 1))).step (.wait i)).1 = .content [] := by
  rcases h.run_cycles_succ n with ⟨huntouched, hmaster, hkept⟩
  generalize r.run (cycles (n + 1)) = r' at huntouched hmaster hkept ⊢
  have hepoch : r'.region.epoch = s.reader.consumed + 1 := by
    rw [Region.epoch, huntouched.counts.epoch_eq, hholds.consumed_eq, ← UInt32.ofNat_one,
      ← UInt32.ofNat_add, Admission.uint32_ofNat_inj, Nat.add_right_comm, Nat.add_mod, hn,
      Nat.add_zero, Nat.mod_mod]
  have hpermits : r'.region.permits ≠ 0 := by
    have hmax : 0 < Semaphore.maxCount := by decide
    rw [huntouched.permits_eq, hmaster]
    exact Nat.ne_of_gt (Nat.lt_min.2 ⟨hlive, hmax⟩)
  have hlag : s.reader.lag? r'.region.epoch = none := if_neg fun hbehind => hbehind.2 hepoch
  have hattempted : s.reader.Attempted r'.region (s.reader.wait r'.region) :=
    Reader.wait_attempted fun _ => huntouched.isOpen
  have hseat' : r'.seats[i]? = some s := hkept ▸ hseat
  rw [Room.step, onSeat_of_taken hseat' htaken, Room.wait]
  generalize s.reader.wait r'.region = answer at hattempted ⊢
  cases hattempted with
  | asleep hphase hsame =>
      rw [hepoch] at hsame
      exact absurd hsame (mt UInt32.add_eq_left.1 (by decide))
  | missed hphase hawake e he =>
      rw [hlag] at he
      cases he
  | starved hreaches hnone => exact absurd hnone hpermits
  | late hphase left hleft e he =>
      rw [hlag] at he
      cases he
  | served hreaches left hleft hnone => exact congrArg Reply.content huntouched.content_eq

/-- A reader at the epoch that the cycles lead to sleeps, though there are permits. -/
theorem wait_of_turn (h : Quiet cycle r) (hseat : r.seats[i]? = some s) (htaken : s.state = .taken)
    (hphase : s.reader.phase = .idle) {n : Nat} (hpos : 0 < n)
    (hconsumed : s.reader.consumed = UInt32.ofNat (cycle + n)) :
    (r.run (cycles n)).region.permits = min r.master.live Semaphore.maxCount
      ∧ ((r.run (cycles n)).step (.wait i)).1 = .blocked := by
  rcases Nat.exists_eq_succ_of_ne_zero (Nat.ne_of_gt hpos) with ⟨m, rfl⟩
  rcases h.run_cycles_succ m with ⟨huntouched, hmaster, hkept⟩
  generalize r.run (cycles m.succ) = r' at huntouched hmaster hkept ⊢
  have hseat' : r'.seats[i]? = some s := hkept ▸ hseat
  refine ⟨?_, wait_of_asleep hseat' htaken hphase ?_⟩
  · rw [huntouched.permits_eq, hmaster]
  · rw [Region.epoch, huntouched.counts.epoch_eq, hconsumed]
    rfl

/-- When as many cycles went by as there are sequence numbers, a copy is confirmed. -/
theorem finish_of_cycles (h : Quiet cycle r) (hseat : r.seats[i]? = some s)
    (htaken : s.state = .taken) (hholds : Holds cycle s.reader) {n : Nat}
    (hn : n % (Admission.epochs * Admission.epochs) = 0) :
    ((r.run (cycles n)).step (.done i)).1 = .done := by
  rcases h.run_cycles n with ⟨hquiet, -, hkept⟩
  have hsequence : (r.run (cycles n)).region.sequence = UInt64.ofNat cycle := by
    rw [hquiet.sequence_eq, Admission.uint64_ofNat_inj, Nat.add_mod, hn, Nat.add_zero, Nat.mod_mod]
  have hepoch : (r.run (cycles n)).region.epoch = UInt32.ofNat cycle := by
    have hturns : n % Admission.epochs = 0 := Nat.mod_eq_zero_of_dvd
      (Nat.dvd_trans (Nat.dvd_mul_left _ _) (Nat.dvd_of_mod_eq_zero hn))
    rw [Region.epoch, hquiet.counts.epoch_eq, Admission.uint32_ofNat_inj, Nat.add_mod, hturns,
      Nat.add_zero, Nat.mod_mod]
  have hseat' : (r.run (cycles n)).seats[i]? = some s := hkept ▸ hseat
  rw [Room.step, onSeat_of_taken hseat' htaken, Room.finish, Reader.finish, hholds.reading_eq]
  dsimp only
  rw [if_pos ⟨hsequence, hepoch⟩]

/-- A reader that took the permit of the open cycle goes for another one after as many visits as there
are epochs, and throws away those that are left.  The readers they were for go without. -/
theorem wait_of_visits (h : Quiet cycle r) (hopen : r.region.isOpen = true)
    (hseat : r.seats[i]? = some s) (htaken : s.state = .taken) (hholds : Holds cycle s.reader)
    {j : Nat} {t : Seat} (hij : i ≠ j) (hother : r.seats[j]? = some t) (hpresent : t.state = .taken)
    (hnew : t.reader.admitted = false) (hawake : t.reader.consumed ≠ UInt32.ofNat cycle + 1)
    {n : Nat} (hn : n = Admission.epochs) :
    (r.run (visits r.seats.length n)).region.permits = r.region.permits
      ∧ ((r.run (visits r.seats.length n)).step (.wait i)).2.region.permits = 0
      ∧ (((r.run (visits r.seats.length n)).step (.wait i)).2.step (.wait j)).1 = .blocked := by
  rcases h.carried_of_visits hn with ⟨hepoch, -, hpermitEpoch, hpermits, hseats⟩
  generalize r.run (visits r.seats.length n) = r' at hepoch hpermitEpoch hpermits hseats ⊢
  have hepochs : r.region.permitEpoch = (UInt32.ofNat cycle).toUInt64 := by
    rw [← h.counts.epoch_eq]
    exact eq_of_beq hopen
  have hclosed : r'.region.isOpen = false := by
    rw [Region.isOpen, hepoch, hpermitEpoch, hepochs]
    refine beq_false_of_ne fun hsame => ?_
    exact absurd (UInt32.toUInt64_inj.1 hsame) (mt UInt32.left_eq_add.1 (by decide))
  -- both readers are let through by the epoch, and what they find is of no open cycle
  have hfirst := wait_of_closed (hseats i s hseat) htaken hclosed
    (by
      rw [hepoch, hholds.consumed_eq]
      exact mt UInt32.add_eq_left.1 (by decide))
    (if_neg fun hbehind => hbehind.2 (by rw [hepoch, hholds.consumed_eq]))
  have hsecond := wait_of_closed
    (r := r'.reseat i s { s.reader with phase := .forPermit } s.fault (r'.region.withPermits 0))
    ((List.getElem?_set_ne hij).trans (hseats j t hother)) hpresent hclosed
    (by
      change r'.region.epoch ≠ _
      rw [hepoch]
      exact Ne.symm hawake)
    (if_neg fun hbehind => by
      rw [hnew] at hbehind
      exact Bool.noConfusion hbehind.1)
  rw [hfirst]
  exact ⟨hpermits, rfl, congrArg Prod.fst hsecond⟩

end Quiet

end Room
end Telemetry
