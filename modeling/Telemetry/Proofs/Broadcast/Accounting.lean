import Telemetry.Proofs.Broadcast.Headcount

/-!
# Accounting — live readers, and how their processes ended

The master learns of a reader that left from the count of departures, and of one that was killed when
it reaps the process.  `Room.Accounted` is a room after any steps, in any order, with a `Room.Tally`
of what the steps alone tell: who joined and left since the last cycle was begun, how many processes
were forked, and how each of them ended.

No step loses a reader or counts one twice (`Room.Tallied.balance`): the readers present, those that
left and the killed ones not yet reaped are exactly those the master counts as live or as waiting.
So the master counts exactly the readers present when a cycle is begun, and every process once, in
the class of its ending (`Room.Accounted.accounts_exact`).
-/

namespace Telemetry

/-! ## Endings -/

inductive Ending where
  | clean
  | lagging
  | failed
  | killed
  deriving DecidableEq, Repr

/-- How the work of a reader process comes to its end, if it is not killed. -/
inductive Outcome where
  | returned (result : Except BroadcastError Unit)
  | panicked

namespace Outcome

def code : Outcome → Nat
  | returned result => exitCode result
  | panicked => 1

def ending : Outcome → Ending
  | returned (.ok ()) => .clean
  | returned (.error e) => if e.isLagging then .lagging else .failed
  | panicked => .failed

end Outcome

namespace ChildStatus

def ending? : ChildStatus → Option Ending
  | exited code => some (if code = 0 then .clean else if code = laggingExit then .lagging else .failed)
  | killed => some .killed
  | running | unknown => none

/-- The exit code tells how the work ended. -/
theorem ending?_code (o : Outcome) : (exited o.code).ending? = some o.ending := by
  match o with
  | .returned (.ok ()) => rfl
  | .returned (.error e) =>
      simp only [ending?, Outcome.code, exitCode, Outcome.ending]
      split
      · rfl
      · rfl
  | .panicked => rfl

end ChildStatus

namespace Reaped

def of (r : Reaped) : Ending → Nat
  | .clean => r.clean
  | .lagging => r.lagging
  | .failed => r.failed
  | .killed => r.killed

theorem total_eq (r : Reaped) : r.total = r.of .clean + r.of .lagging + r.of .failed + r.of .killed :=
  rfl

/-- A process is counted in its class, and in no other. -/
theorem of_count (r : Reaped) (s : ChildStatus) (e : Ending) :
    (r.count s).of e = r.of e + if s.ending? = some e then 1 else 0 := by
  cases s with
  | exited code =>
      rw [count, ChildStatus.ending?]
      by_cases hclean : code = 0
      · rw [if_pos hclean, if_pos hclean]
        cases e <;> rfl
      · rw [if_neg hclean, if_neg hclean]
        by_cases hlagging : code = laggingExit
        · rw [if_pos hlagging, if_pos hlagging]
          cases e <;> rfl
        · rw [if_neg hlagging, if_neg hlagging]
          cases e <;> rfl
  | running => rfl
  | killed => cases e <;> rfl
  | unknown => rfl

theorem of_foldl_count (status : Nat → ChildStatus) (ps : List Nat) (r : Reaped) (e : Ending) :
    (ps.foldl (fun r p => r.count (status p)) r).of e
      = r.of e + ps.countP fun p => (status p).ending? = some e := by
  induction ps generalizing r with
  | nil => rfl
  | cons p ps ih =>
      rw [List.foldl_cons, ih, of_count, List.countP_cons]
      simp only [decide_eq_true_eq]
      omega

theorem total_count (r : Reaped) (s : ChildStatus) :
    (r.count s).total = r.total + if s.ending?.isSome then 1 else 0 := by
  simp only [total_eq, of_count]
  cases hending : s.ending? with
  | none => simp
  | some e =>
      cases e <;> simp <;> omega

/-- Of processes that run or ended, those that do not run any more are counted. -/
theorem total_foldl_count {status : Nat → ChildStatus} {ps : List Nat}
    (hknown : ∀ p ∈ ps, status p ≠ .unknown) (r : Reaped) :
    (ps.foldl (fun r p => r.count (status p)) r).total
        + (ps.filter fun p => status p == .running).length = r.total + ps.length := by
  induction ps generalizing r with
  | nil => rfl
  | cons p ps ih =>
      have hrest := ih (fun q hq => hknown q (List.mem_cons_of_mem p hq)) (r.count (status p))
      have hcount := r.total_count (status p)
      rw [List.foldl_cons, List.length_cons]
      by_cases hrunning : status p = .running
      · have hfilter : (p :: ps).filter (fun p => status p == .running)
            = p :: ps.filter fun p => status p == .running :=
          List.filter_cons_of_pos (beq_iff_eq.2 hrunning)
        rw [hfilter, List.length_cons]
        rw [hrunning] at hcount hrest ⊢
        change _ = r.total + 0 at hcount
        omega
      · have hfilter : (p :: ps).filter (fun p => status p == .running)
            = ps.filter fun p => status p == .running :=
          List.filter_cons_of_neg fun h => hrunning (eq_of_beq h)
        have hended : (status p).ending?.isSome = true := by
          have hp := hknown p List.mem_cons_self
          cases hstatus : status p with
          | running => exact absurd hstatus hrunning
          | exited code => rfl
          | killed => rfl
          | unknown => exact absurd hstatus hp
        rw [if_pos hended] at hcount
        rw [hfilter]
        omega

end Reaped

/-! ## Processes -/

/-- What the system tells of the process of a seat. -/
def Seat.status (s : Seat) : ChildStatus :=
  if s.forked then
    match s.state with
    | .exited code => .exited code
    | .killed => .killed
    | .taken | .left => .running
  else .unknown

/-- The process of a reader that has not ended runs on. -/
theorem Seat.status_running {s : Seat} (hforked : s.forked = true)
    (hstate : s.state = .taken ∨ s.state = .left) : s.status = .running := by
  rw [status, if_pos hforked]
  rcases hstate with h | h
  · rw [h]
  · rw [h]

namespace Room

variable {r : Room} {i : Nat} {s : Seat}

def close (r : Room) (i : Nat) (s : Seat) (o : Outcome) : Room :=
  { r with seats := r.seats.set i { s with state := .exited o.code } }

/-- To leave with the end of one's process is to leave first, and to end then. -/
theorem depart_exited (r : Room) (i : Nat) (s : Seat) (o : Outcome) :
    (r.depart i s (.exited o.code)).2
      = (r.depart i s .left).2.close i { s with state := .left } o := by
  simp only [depart, close, List.set_set]

theorem status_of_seat (hseat : r.seats[i]? = some s) : r.status i = s.status := by
  rw [status, hseat]
  rfl

/-- A seat that is set again is asked for what it says then. -/
theorem status_set (hseat : r.seats[i]? = some s) (region : Region) (s' : Seat) (j : Nat) :
    { r with region := region, seats := r.seats.set i s' }.status j
      = if i = j then s'.status else r.status j := by
  by_cases hij : i = j
  · subst hij
    rw [if_pos rfl]
    exact status_of_seat (List.getElem?_set_self (List.getElem?_eq_some_iff.1 hseat).1)
  · rw [if_neg hij]
    exact status_of_ne r region hij s'

/-- A new seat has a running process, or none. -/
theorem status_join (r : Room) (forked : Bool) (j : Nat) :
    (r.join forked).2.status j
      = if j = r.seats.length then (if forked then .running else .unknown) else r.status j := by
  by_cases hj : j = r.seats.length
  · rw [if_pos hj, hj]
    exact status_of_seat (s := ⟨(Reader.join r.region).1, forked, .taken, none⟩)
      List.getElem?_concat_length
  · have hsame : (r.join forked).2.seats[j]? = r.seats[j]? := by
      rw [join]
      dsimp only
      rw [List.getElem?_append]
      split
      · rfl
      · next hlt =>
        rw [List.getElem?_eq_none (by rw [List.length_singleton]; omega),
          List.getElem?_eq_none (Nat.not_lt.1 hlt)]
    rw [if_neg hj, status, status, hsame]

/-! ## Steps and what they tell -/

structure Tally where
  /-- readers that joined since the last cycle was begun -/
  joins : Nat
  /-- readers that left since then -/
  departures : Nat
  /-- processes forked for readers -/
  spawned : Nat
  /-- how the process of a reader ended, if it did -/
  ended : Nat → Option Ending

namespace Tally

def fresh : Tally :=
  ⟨0, 0, 0, fun _ => none⟩

def close (t : Tally) (i : Nat) (e : Ending) : Tally :=
  { t with ended := fun j => if i = j then some e else t.ended j }

def note (t : Tally) : Step → Tally
  | .forbid => { t with joins := 0, departures := 0 }
  | .subscribe => { t with joins := t.joins + 1 }
  | .spawn => { t with joins := t.joins + 1, spawned := t.spawned + 1 }
  | _ => t

/-- Steps that take no reader from its seat, and are not made of others.  Fewer readers than there
are epochs join in one cycle. -/
def Allows (t : Tally) : Step → Prop
  | .subscribe | .spawn => t.joins + 1 < Admission.epochs
  | .forbid | .write _ | .permit | .wait _ | .done _ | .content _ => True
  | .broadcast _ | .receive _ | .leave _ | .exit _ | .panic _ | .kill _ => False

end Tally

/-- The room after any steps, and what they tell.  A process ends by itself after its reader left, or
it is killed while its reader is there. -/
inductive Accounted (capacity : Nat) : Room → Tally → Prop where
  | start (name : String) : Accounted capacity (fresh capacity name) .fresh
  | step {r : Room} {t : Tally} (h : Accounted capacity r t) (s : Step) (hs : t.Allows s) :
      Accounted capacity (r.step s).2 (t.note s)
  | leave {r : Room} {t : Tally} (h : Accounted capacity r t) {i : Nat} {s : Seat}
      (hseat : r.seats[i]? = some s) (htaken : s.state = .taken)
      (hroom : t.departures + 1 < UInt64.size) :
      Accounted capacity (r.step (.leave i)).2 { t with departures := t.departures + 1 }
  | close {r : Room} {t : Tally} (h : Accounted capacity r t) {i : Nat} {s : Seat}
      (hseat : r.seats[i]? = some s) (hforked : s.forked = true) (hleft : s.state = .left)
      (o : Outcome) :
      Accounted capacity (r.close i s o) (t.close i o.ending)
  | kill {r : Room} {t : Tally} (h : Accounted capacity r t) {i : Nat} {s : Seat}
      (hseat : r.seats[i]? = some s) (hforked : s.forked = true) (htaken : s.state = .taken) :
      Accounted capacity (r.step (.kill i)).2 (t.close i .killed)

/-! ## What every step keeps -/

/-- The processes that ended in a class and are not tracked any more. -/
def reapedAs (r : Room) (t : Tally) (e : Ending) : Finset Nat :=
  (Finset.range r.seats.length).filter fun i => t.ended i = some e ∧ i ∉ r.master.children

/-- The books of the master agree with what the steps tell. -/
structure Tallied (r : Room) (t : Tally) : Prop where
  counts : ∃ cycle, r.region.admission.Counts cycle t.joins
  departed_eq : r.region.departed.toNat = t.departures
  /-- Every reader is where the master looks for it, and in one place only. -/
  balance : r.master.live + t.joins = r.present.card + t.departures + r.killed.card
  children_nodup : r.master.children.Nodup
  children_known : ∀ p ∈ r.master.children, r.status p ≠ .unknown
  tracked : ∀ i, r.status i = .running → i ∈ r.master.children
  spawned_eq : r.master.reaped.total + r.master.children.length = t.spawned
  ended_eq : ∀ i, (r.status i).ending? = t.ended i
  reaped_eq : ∀ e, r.master.reaped.of e = (r.reapedAs t e).card

namespace Tallied

variable {t : Tally}

theorem start (capacity : Nat) (name : String) : Tallied (fresh capacity name) .fresh where
  counts := ⟨0, rfl, by decide⟩
  departed_eq := rfl
  balance := rfl
  children_nodup := .nil
  children_known p hp := by cases hp
  tracked i hi := by cases hi
  spawned_eq := rfl
  ended_eq i := rfl
  reaped_eq e := by cases e <;> rfl

theorem children_lt (h : Tallied r t) : ∀ p ∈ r.master.children, p < r.seats.length := by
  intro p hp
  refine Nat.not_le.1 fun hbeyond => h.children_known p hp ?_
  rw [status, List.getElem?_eq_none hbeyond]

/-- What the master subtracts when it begins a cycle. -/
theorem subtracted_le (h : Tallied r t) :
    r.region.departed.toNat + (r.master.reap r.status).1
        ≤ r.master.live + r.region.admission.pending.toNat
      ∧ (r.step .forbid).2.master.live = r.present.card := by
  obtain ⟨cycle, hcounts⟩ := h.counts
  have hbalance := h.balance
  have hdeparted := h.departed_eq
  have hlive : (r.step .forbid).2.master.live
      = r.master.live + r.region.admission.pending.toNat
        - (r.region.departed.toNat + (r.master.reap r.status).1) := rfl
  rw [hlive, reap_killed h.children_nodup, hcounts.pending_eq]
  omega

theorem forbid (h : Tallied r t) : Tallied (r.step .forbid).2 (t.note .forbid) := by
  obtain ⟨cycle, hcounts⟩ := h.counts
  have hchildren : (r.step .forbid).2.master.children
      = r.master.children.filter fun p => r.status p == .running := rfl
  have hreaped : (r.step .forbid).2.master.reaped
      = r.master.children.foldl (fun c p => c.count (r.status p)) r.master.reaped := rfl
  have hstatus : ∀ i, (r.step .forbid).2.status i = r.status i := fun _ => rfl
  refine ⟨⟨cycle + 1, hcounts.advance⟩, rfl, ?_, ?_, ?_, ?_, ?_, ?_, ?_⟩
  · have hpresent : (r.step .forbid).2.present = r.present := rfl
    rw [h.subtracted_le.2, hpresent, r.killed_forbid]
    rfl
  · exact h.children_nodup.filter _
  · intro p hp
    exact h.children_known p (List.mem_filter.1 hp).1
  · intro i hi
    rw [hstatus] at hi
    rw [hchildren, List.mem_filter, hi]
    exact ⟨h.tracked i hi, rfl⟩
  · rw [hreaped, hchildren, Reaped.total_foldl_count h.children_known]
    exact h.spawned_eq
  · exact h.ended_eq
  · intro e
    -- the children that ended in the class join those that were reaped before
    have hnew : r.master.children.countP (fun p => (r.status p).ending? = some e)
        = ((r.master.children.filter fun p => (r.status p).ending? = some e).toFinset).card := by
      rw [List.toFinset_card_of_nodup (h.children_nodup.filter _), List.countP_eq_length_filter]
    have hdisjoint : Disjoint (r.reapedAs t e)
        ((r.master.children.filter fun p => (r.status p).ending? = some e).toFinset) := by
      rw [Finset.disjoint_left]
      intro i hi hchild
      exact (Finset.mem_filter.1 hi).2.2 (List.mem_filter.1 (List.mem_toFinset.1 hchild)).1
    have hunion : (r.step .forbid).2.reapedAs (t.note .forbid) e = r.reapedAs t e
        ∪ (r.master.children.filter fun p => (r.status p).ending? = some e).toFinset := by
      ext i
      rw [Finset.mem_union, reapedAs, reapedAs, Finset.mem_filter, Finset.mem_filter,
        List.mem_toFinset, List.mem_filter, decide_eq_true_iff, h.ended_eq]
      constructor
      · rintro ⟨hi, hended, -⟩
        by_cases hchild : i ∈ r.master.children
        · exact .inr ⟨hchild, hended⟩
        · exact .inl ⟨hi, hended, hchild⟩
      · rintro (⟨hi, hended, hchild⟩ | ⟨hchild, hended⟩)
        · exact ⟨hi, hended, fun h => hchild (List.mem_filter.1 h).1⟩
        · refine ⟨Finset.mem_range.2 (h.children_lt i hchild), hended, fun hkept => ?_⟩
          have hrunning : r.status i = .running := eq_of_beq (List.mem_filter.1 hkept).2
          have hending := h.ended_eq i
          rw [hrunning, hended] at hending
          cases hending
    rw [hreaped, Reaped.of_foldl_count, h.reaped_eq, hnew, hunion,
      Finset.card_union_of_disjoint hdisjoint]

/-- A step that leaves the master and the processes alone. -/
theorem keep (h : Tallied r t) {r' : Room} {t' : Tally}
    (hadmission : r'.region.admission = r.region.admission) (hmaster : r'.master = r.master)
    (hlength : r'.seats.length = r.seats.length) (hstatus : ∀ i, r'.status i = r.status i)
    (hjoins : t'.joins = t.joins) (hspawned : t'.spawned = t.spawned) (hended : t'.ended = t.ended)
    (hdeparted : r'.region.departed.toNat = t'.departures)
    (hpresent : r'.present.card + t'.departures = r.present.card + t.departures) :
    Tallied r' t' where
  counts := by
    rw [hadmission, hjoins]
    exact h.counts
  departed_eq := hdeparted
  balance := by
    have hkilled : r'.killed = r.killed := by
      ext i
      rw [mem_killed, mem_killed, hmaster, hstatus]
    rw [hmaster, hjoins, hkilled, hpresent]
    exact h.balance
  children_nodup := hmaster ▸ h.children_nodup
  children_known p hp := by
    rw [hmaster] at hp
    rw [hstatus]
    exact h.children_known p hp
  tracked i hi := by
    rw [hstatus] at hi
    rw [hmaster]
    exact h.tracked i hi
  spawned_eq := by
    rw [hmaster, hspawned]
    exact h.spawned_eq
  ended_eq i := by
    rw [hstatus, hended]
    exact h.ended_eq i
  reaped_eq e := by
    rw [hmaster, reapedAs, hlength, hended, hmaster]
    exact h.reaped_eq e

/-- A call of a reader that keeps its seat. -/
theorem reseat (h : Tallied r t) (hseat : r.seats[i]? = some s) (htaken : s.state = .taken)
    (reader : Reader) (fault : Option BroadcastError) {region : Region}
    (hadmission : region.admission = r.region.admission)
    (hdeparted : region.departed = r.region.departed) :
    Tallied (r.reseat i s reader fault region) t := by
  let s' : Seat := { s with reader := reader, fault := fault }
  refine h.keep hadmission rfl List.length_set (fun j => ?_) rfl rfl rfl ?_ ?_
  · rw [Room.reseat, status_set hseat region s' j]
    split
    · next hij => rw [← hij, status_of_seat hseat]; rfl
    · rfl
  · exact (congrArg UInt64.toNat hdeparted).trans h.departed_eq
  · rw [Room.reseat, present_reseat hseat htaken s' htaken]

/-- A reader that leaves is counted as departed; its process, if it has one, runs on. -/
theorem leave (h : Tallied r t) (hseat : r.seats[i]? = some s) (htaken : s.state = .taken)
    (hroom : t.departures + 1 < UInt64.size) :
    Tallied (r.step (.leave i)).2 { t with departures := t.departures + 1 } := by
  let s' : Seat := { s with state := .left }
  rw [Room.step, onSeat_of_taken hseat htaken, depart]
  refine h.keep rfl rfl List.length_set (fun j => ?_) rfl rfl rfl ?_ ?_
  · rw [status_set hseat _ s' j]
    split
    · next hij =>
      rw [← hij, status_of_seat hseat]
      simp only [Seat.status, s', htaken]
    · rfl
  · have hdeparted := h.departed_eq
    change (r.region.departed + 1).toNat = t.departures + 1
    rw [UInt64.toNat_add, hdeparted, UInt64.toNat_one, Nat.mod_eq_of_lt hroom]
  · have hcount := Finset.card_erase_add_one (mem_present.2 ⟨s, hseat, htaken⟩)
    rw [present_vacate hseat s' (by rintro ⟨⟩)]
    dsimp only
    omega

/-- A process that ends is tracked until it is reaped. -/
theorem finish (h : Tallied r t) (hseat : r.seats[i]? = some s) (hrunning : s.status = .running)
    (s' : Seat) {e : Ending} (hending : s'.status.ending? = some e) {r' : Room}
    (hr' : r' = { r with seats := r.seats.set i s' })
    (hbalance : r'.present.card + r'.killed.card = r.present.card + r.killed.card) :
    Tallied r' (t.close i e) := by
  have hmaster : r'.master = r.master := by rw [hr']
  have hregion : r'.region = r.region := by rw [hr']
  have hlength : r'.seats.length = r.seats.length := by rw [hr', List.length_set]
  have hstatus : ∀ j, r'.status j = if i = j then s'.status else r.status j := by
    rw [hr']
    exact status_set hseat r.region s'
  have hbefore : r.status i = .running := (status_of_seat hseat).trans hrunning
  -- the process is among the children until it is reaped, so no class counts it yet
  have hchild : i ∈ r.master.children := h.tracked i hbefore
  refine ⟨?_, ?_, ?_, ?_, ?_, ?_, ?_, ?_, ?_⟩
  · rw [hregion]
    exact h.counts
  · rw [hregion]
    exact h.departed_eq
  · have hold := h.balance
    rw [hmaster]
    change _ + t.joins = _ + t.departures + _
    omega
  · exact hmaster ▸ h.children_nodup
  · intro p hp
    rw [hmaster] at hp
    rw [hstatus]
    split
    · intro hunknown
      rw [hunknown] at hending
      cases hending
    · exact h.children_known p hp
  · intro j hj
    rw [hmaster]
    rw [hstatus] at hj
    split at hj
    · rw [hj] at hending
      cases hending
    · exact h.tracked j hj
  · rw [hmaster]
    exact h.spawned_eq
  · intro j
    rw [hstatus, Tally.close]
    dsimp only
    split
    · exact hending
    · exact h.ended_eq j
  · intro e'
    have hsame : r'.reapedAs (t.close i e) e' = r.reapedAs t e' := by
      rw [reapedAs, reapedAs, hlength, hmaster]
      refine Finset.filter_congr fun j _ => ?_
      rw [Tally.close]
      dsimp only
      split
      · next hij =>
        subst hij
        exact ⟨fun h => absurd hchild h.2, fun h => absurd hchild h.2⟩
      · rfl
    rw [hmaster, hsame]
    exact h.reaped_eq e'

theorem close (h : Tallied r t) (hseat : r.seats[i]? = some s) (hforked : s.forked = true)
    (hleft : s.state = .left) (o : Outcome) : Tallied (r.close i s o) (t.close i o.ending) := by
  let s' : Seat := { s with state := .exited o.code }
  have hstatus : s'.status = .exited o.code := by simp only [Seat.status, s', hforked, if_true]
  have hgone : i ∉ r.present := by
    rw [mem_present, hseat]
    rintro ⟨_, ⟨⟩, htaken⟩
    rw [hleft] at htaken
    cases htaken
  refine h.finish hseat (Seat.status_running hforked (.inr hleft)) s' ?_ rfl ?_
  · rw [hstatus]
    exact ChildStatus.ending?_code o
  · rw [Room.close, present_vacate hseat s' (by rintro ⟨⟩) r.region,
      Finset.erase_eq_of_notMem hgone, killed_reseat hseat (by rw [hleft]; decide) s' (by rintro ⟨⟩)]

theorem kill (h : Tallied r t) (hseat : r.seats[i]? = some s) (hforked : s.forked = true)
    (htaken : s.state = .taken) : Tallied (r.step (.kill i)).2 (t.close i .killed) := by
  let s' : Seat := { s with state := .killed }
  have hstatus : s'.status = .killed := by simp only [Seat.status, s', hforked, if_true]
  have hrunning : s.status = .running := Seat.status_running hforked (.inl htaken)
  rw [Room.step, onSeat_of_taken hseat htaken]
  refine h.finish hseat hrunning s' ?_ rfl ?_
  · rw [hstatus]
    rfl
  -- the reader goes from the present ones to the killed ones, and is still counted
  · have hbefore : r.status i = .running := (status_of_seat hseat).trans hrunning
    have hkilled : { r with seats := r.seats.set i s' }.killed = insert i r.killed := by
      ext j
      rw [Finset.mem_insert, mem_killed, mem_killed, status_set hseat r.region s' j]
      dsimp only
      by_cases hij : i = j
      · rw [if_pos hij, hstatus]
        exact ⟨fun _ => .inl hij.symm, fun _ => ⟨hij ▸ h.tracked i hbefore, rfl⟩⟩
      · rw [if_neg hij]
        exact ⟨.inr, fun hj => hj.resolve_left (Ne.symm hij)⟩
    have hnew : i ∉ r.killed := by
      rw [mem_killed, hbefore]
      rintro ⟨-, ⟨⟩⟩
    have hcount := Finset.card_erase_add_one (mem_present.2 ⟨s, hseat, htaken⟩)
    rw [hkilled, Finset.card_insert_of_notMem hnew, present_vacate hseat s' (by rintro ⟨⟩) r.region]
    omega

theorem join (h : Tallied r t) (forked : Bool) (hroom : t.joins + 1 < Admission.epochs) :
    Tallied (r.join forked).2
      { t with
        joins := t.joins + 1
        spawned := t.spawned + if forked then 1 else 0 } := by
  obtain ⟨cycle, hcounts⟩ := h.counts
  have hlength : (r.join forked).2.seats.length = r.seats.length + 1 := by
    simp [Room.join]
  have hchildren : (r.join forked).2.master.children
      = r.master.children ++ if forked then [r.seats.length] else [] := by
    cases forked with
    | false => exact (List.append_nil _).symm
    | true => rfl
  have hreaped : (r.join forked).2.master.reaped = r.master.reaped := by cases forked <;> rfl
  have hlive : (r.join forked).2.master.live = r.master.live := by cases forked <;> rfl
  have hnone : r.status r.seats.length = .unknown := by
    rw [status, List.getElem?_eq_none (Nat.le_refl _)]
  refine ⟨⟨cycle, (hcounts.register hroom).2⟩, h.departed_eq, ?_, ?_, ?_, ?_, ?_, ?_, ?_⟩
  · have hold := h.balance
    have hfresh : r.seats.length ∉ r.present := by
      rw [mem_present, List.getElem?_eq_none (Nat.le_refl _)]
      rintro ⟨_, ⟨⟩, _⟩
    rw [hlive, present_join, Finset.card_insert_of_notMem hfresh, killed_join h.children_lt]
    dsimp only
    omega
  · rw [hchildren]
    cases forked with
    | false => exact (List.append_nil _).symm ▸ h.children_nodup
    | true =>
        refine List.Nodup.append h.children_nodup (List.nodup_singleton _) fun p hp hnew => ?_
        exact Nat.ne_of_lt (h.children_lt p hp) (List.mem_singleton.1 hnew)
  · intro p hp
    rw [hchildren, List.mem_append] at hp
    rw [status_join]
    split
    · next hnew =>
      cases forked with
      | true => rintro ⟨⟩
      | false =>
          rcases hp with hp | hp
          · exact absurd hnew (Nat.ne_of_lt (h.children_lt p hp))
          · cases hp
    · next hold =>
      rcases hp with hp | hp
      · exact h.children_known p hp
      · cases forked with
        | true => exact absurd (List.mem_singleton.1 hp) hold
        | false => cases hp
  · intro j hj
    rw [status_join] at hj
    rw [hchildren, List.mem_append]
    split at hj
    · next hnew =>
      cases forked with
      | true => exact .inr (List.mem_singleton.2 hnew)
      | false => cases hj
    · exact .inl (h.tracked j hj)
  · have hold := h.spawned_eq
    rw [hreaped, hchildren, List.length_append]
    cases forked with
    | true =>
        simp only [if_true, List.length_singleton]
        omega
    | false => exact hold
  · intro j
    rw [status_join]
    split
    · next hnew =>
      have hunended := h.ended_eq j
      rw [hnew, hnone] at hunended
      rw [hnew, ← hunended]
      cases forked <;> rfl
    · exact h.ended_eq j
  · intro e
    have hsame : (r.join forked).2.reapedAs
        { t with
          joins := t.joins + 1
          spawned := t.spawned + if forked then 1 else 0 } e = r.reapedAs t e := by
      have hunended : t.ended r.seats.length = none := by
        rw [← h.ended_eq, hnone]
        rfl
      ext j
      simp only [reapedAs, Finset.mem_filter, Finset.mem_range, hlength, hchildren, List.mem_append]
      by_cases hnew : j = r.seats.length
      · rw [hnew, hunended]
        exact iff_of_false (by rintro ⟨-, ⟨⟩, -⟩) (by rintro ⟨-, ⟨⟩, -⟩)
      · have hkept : j ∉ (if forked then [r.seats.length] else []) := by
          cases forked <;> simp [hnew]
        have hlt : j < r.seats.length + 1 ↔ j < r.seats.length := by omega
        rw [hlt, or_iff_left hkept]
    rw [hreaped, hsame]
    exact h.reaped_eq e

theorem step (h : Tallied r t) (s : Step) (hs : t.Allows s) : Tallied (r.step s).2 (t.note s) := by
  cases s with
  | forbid => exact h.forbid
  | write content =>
      rw [Room.step, Region.write]
      by_cases hfits : content.length ≤ r.region.capacity
      · rw [dif_pos hfits]
        exact h.keep rfl rfl rfl (fun _ => rfl) rfl rfl rfl h.departed_eq rfl
      · rw [dif_neg hfits]
        exact h
  | permit => exact h.keep rfl rfl rfl (fun _ => rfl) rfl rfl rfl h.departed_eq rfl
  | broadcast content => exact hs.elim
  | subscribe => exact h.join false hs
  | spawn => exact h.join true hs
  | wait i =>
      refine onSeat_cases (P := fun answer => Tallied answer.2 t) h fun s hseat htaken => ?_
      obtain ⟨reader, fault, left, hroom⟩ := r.wait_eq_reseat i s
      rw [hroom]
      refine h.reseat hseat htaken reader fault ?_ ?_
      · rfl
      · rfl
  | done i =>
      refine onSeat_cases (P := fun answer => Tallied answer.2 t) h fun s hseat htaken => ?_
      obtain ⟨reader, fault, readDone, hroom⟩ := r.finish_eq_reseat i s
      rw [hroom]
      refine h.reseat hseat htaken reader fault ?_ ?_
      · rfl
      · rfl
  | content i =>
      exact onSeat_cases (P := fun answer => Tallied answer.2 t) h fun s hseat htaken =>
        h.reseat hseat htaken s.reader none rfl rfl
  | receive i => exact hs.elim
  | leave i => exact hs.elim
  | exit i => exact hs.elim
  | panic i => exact hs.elim
  | kill i => exact hs.elim

end Tallied

/-- The books agree after any steps. -/
theorem Accounted.tallied {capacity : Nat} {t : Tally} (h : Accounted capacity r t) :
    Tallied r t := by
  -- on the steps: each has its lemma above
  induction h with
  | start name => exact .start capacity name
  | step h s hs ih => exact ih.step s hs
  | leave h hseat htaken hroom ih => exact ih.leave hseat htaken hroom
  | close h hseat hforked hleft o ih => exact ih.close hseat hforked hleft o
  | kill h hseat hforked htaken ih => exact ih.kill hseat hforked htaken

/-! ## Steps made of others -/

theorem Accounted.exited {capacity : Nat} {t : Tally} (h : Accounted capacity r t)
    (hseat : r.seats[i]? = some s) (hforked : s.forked = true) (htaken : s.state = .taken)
    (hroom : t.departures + 1 < UInt64.size) (o : Outcome) :
    Accounted capacity (r.depart i s (.exited o.code)).2
      ({ t with departures := t.departures + 1 }.close i o.ending) := by
  have hleft := h.leave hseat htaken hroom
  rw [Room.step, onSeat_of_taken hseat htaken] at hleft
  rw [depart_exited]
  exact hleft.close (List.getElem?_set_self (List.getElem?_eq_some_iff.1 hseat).1) hforked rfl o

/-- A reader process that ends its work ends in the class of the error of its last call. -/
theorem Accounted.exit {capacity : Nat} {t : Tally} (h : Accounted capacity r t)
    (hseat : r.seats[i]? = some s) (hforked : s.forked = true) (htaken : s.state = .taken)
    (hroom : t.departures + 1 < UInt64.size) :
    let result : Except BroadcastError Unit :=
      match s.fault with
      | none => .ok ()
      | some e => .error e
    Accounted capacity (r.step (.exit i)).2
      ({ t with departures := t.departures + 1 }.close i (Outcome.returned result).ending) := by
  intro result
  rw [Room.step, onSeat_of_taken hseat htaken]
  exact h.exited hseat hforked htaken hroom (.returned result)

theorem Accounted.panic {capacity : Nat} {t : Tally} (h : Accounted capacity r t)
    (hseat : r.seats[i]? = some s) (hforked : s.forked = true) (htaken : s.state = .taken)
    (hroom : t.departures + 1 < UInt64.size) :
    Accounted capacity (r.step (.panic i)).2
      ({ t with departures := t.departures + 1 }.close i .failed) := by
  rw [Room.step, onSeat_of_taken hseat htaken]
  exact h.exited hseat hforked htaken hroom .panicked

/-! ## Main statement -/

/-- After every step the master counts, as live or as waiting to be admitted, the readers present,
those that left and the killed ones it has yet to reap.  So what it subtracts when it begins a cycle
is covered, and the readers present are left.  Every forked process is tracked or reaped, and every
one that ended is counted once, in the class of its ending, when the next cycle is begun. -/
theorem Accounted.accounts_exact {capacity : Nat} {t : Tally} (h : Accounted capacity r t) :
    r.master.live + r.region.admission.pending.toNat
        = r.present.card + r.region.departed.toNat + r.killed.card
      ∧ r.region.departed.toNat + (r.master.reap r.status).1
        ≤ r.master.live + r.region.admission.pending.toNat
      ∧ (r.step .forbid).2.master.live = (r.step .forbid).2.present.card
      ∧ r.master.reaped.total + r.master.children.length = t.spawned
      ∧ (∀ e, r.master.reaped.of e = ((Finset.range r.seats.length).filter fun i =>
          t.ended i = some e ∧ i ∉ r.master.children).card)
      ∧ ∀ e, (r.step .forbid).2.master.reaped.of e
          = ((Finset.range r.seats.length).filter fun i => t.ended i = some e).card := by
  have ht := h.tallied
  have hnext := ht.forbid
  obtain ⟨cycle, hcounts⟩ := ht.counts
  refine ⟨?_, ht.subtracted_le.1, ht.subtracted_le.2, ht.spawned_eq, ht.reaped_eq, ?_⟩
  · rw [hcounts.pending_eq, ht.departed_eq]
    exact ht.balance
  · intro e
    have hall : (r.step .forbid).2.reapedAs (t.note .forbid) e
        = (Finset.range r.seats.length).filter fun i => t.ended i = some e := by
      refine Finset.filter_congr fun i _ => and_iff_left_of_imp fun hended hchild => ?_
      -- the children that are kept run on
      have hrunning : r.status i = .running := eq_of_beq (List.mem_filter.1 hchild).2
      have hending := ht.ended_eq i
      rw [hrunning] at hending
      cases hending.trans hended
    rw [hnext.reaped_eq, hall]

/-- Four processes and two readers without one.  One process comes to its end, one falls behind, one
panics and one is killed; a reader leaves, and one is left. -/
theorem Accounted.accounts_exact_everyEnding :
    ∃ r t, Accounted 64 r t
      ∧ r.master.live = 6 ∧ r.region.departed.toNat = 4 ∧ r.killed.card = 1 ∧ r.present.card = 1
      ∧ r.master.live + r.region.admission.pending.toNat
        = r.present.card + r.region.departed.toNat + r.killed.card
      ∧ (r.step .forbid).2.master.live = (r.step .forbid).2.present.card
      ∧ r.master.reaped.total + r.master.children.length = 4
      ∧ ∀ e, (r.step .forbid).2.master.reaped.of e = 1 := by
  have hroom : ∀ n, n < 6 → n + 1 < Admission.epochs := by decide
  have hleave : ∀ n, n < 4 → n + 1 < UInt64.size := by decide
  have hstart : Accounted 64 (Room.fresh 64) .fresh := .start _
  have hjoined := (((((hstart.step .spawn (hroom 0 (by decide))).step .spawn
    (hroom 1 (by decide))).step .spawn (hroom 2 (by decide))).step .spawn
    (hroom 3 (by decide))).step .subscribe (hroom 4 (by decide))).step .subscribe
    (hroom 5 (by decide))
  have hopened := ((hjoined.step .forbid trivial).step (.write [1]) trivial).step .permit trivial
  have hclean := hopened.exit (i := 0) rfl rfl rfl (hleave 0 (by decide))
  have hlagging := hclean.exited (i := 1) rfl rfl rfl (hleave 1 (by decide))
    (.returned (.error (.lagged 1 3)))
  have hfailed := hlagging.panic (i := 2) rfl rfl rfl (hleave 2 (by decide))
  have h := (hfailed.kill (i := 3) rfl rfl rfl).leave (i := 4) rfl rfl (hleave 3 (by decide))
  obtain ⟨hbalance, -, hlive, hspawned, -, hreaped⟩ := h.accounts_exact
  refine ⟨_, _, h, rfl, rfl, rfl, rfl, hbalance, hlive, hspawned, fun e => ?_⟩
  rw [hreaped]
  cases e <;> rfl

end Room
end Telemetry
