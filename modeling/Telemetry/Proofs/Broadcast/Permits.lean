import Telemetry.Proofs.Broadcast.Headcount
import Telemetry.Proofs.Broadcast.Lockstep

/-!
# Permits — who takes one, and who is sure of one

A `Room.Ledger` notes, beside the log, what became of the permits of the current cycle: how many were
released, which readers took one, and which confirmed their copy.  `Room.Audited` is a schedule with
its ledger.

Along every such run the ledger is `Room.Balanced`: no permit is lost or taken twice, and among the
permits left there is one for every reader present that has a right to it.  The set `owed` of the
invariant holds these readers.  It starts as the readers present when the cycle is begun, and a reader
goes out of it with the permit that it takes.

The permits posted are those of all live readers only up to the bound of the semaphore, and a reader
that has its permit stays away from the others only while the epoch is that of its cycle
(`Room.Audited.permits_overrun`).
-/

namespace Telemetry
namespace Room

/-- What became of the permits of the current cycle. -/
structure Ledger where
  /-- permits that were posted -/
  released : Nat
  /-- one entry for each wait that took a permit, the latest first -/
  takers : List Nat
  /-- one entry for each copy that was confirmed, the latest first -/
  confirmed : List Nat
  deriving DecidableEq, Repr

namespace Ledger

def empty : Ledger :=
  ⟨0, [], []⟩

def take (b : Ledger) (i before after : Nat) : Ledger :=
  if after < before then { b with takers := i :: b.takers } else b

def release (b : Ledger) (before after : Nat) : Ledger :=
  { b with released := after - before }

def confirm (b : Ledger) (i : Nat) : Reply → Ledger
  | .done => { b with confirmed := i :: b.confirmed }
  | _ => b

def note (b : Ledger) (r : Room) : Step → Ledger
  | .forbid => .empty
  | .permit => b.release r.region.permits (r.step .permit).2.region.permits
  | .wait i => b.take i r.region.permits (r.step (.wait i)).2.region.permits
  | .done i => b.confirm i (r.step (.done i)).1
  | _ => b

theorem take_self (b : Ledger) (i permits : Nat) : b.take i permits permits = b :=
  if_neg (Nat.lt_irrefl permits)

theorem take_succ (b : Ledger) (i left : Nat) :
    b.take i (left + 1) left = { b with takers := i :: b.takers } :=
  if_pos (Nat.lt_succ_self left)

end Ledger

inductive Audited (c : Nat → List UInt8) (capacity : Nat) : Room → Log → Ledger → Prop where
  | start (name : String) : Audited c capacity (fresh capacity name) .fresh .empty
  | step {r : Room} {l : Log} {b : Ledger} (h : Audited c capacity r l b) (s : Step)
      (hs : l.Allows c s) :
      Audited c capacity (r.step s).2 (l.note s (r.step s).1) (b.note r s)

theorem Audited.scheduled {c : Nat → List UInt8} {capacity : Nat} {r : Room} {l : Log} {b : Ledger}
    (h : Audited c capacity r l b) : Scheduled c capacity r l := by
  induction h with
  | start name => exact .start name
  | step h s hs ih => exact ih.step s hs

/-! ## The invariant -/

/-- What the ledger says of one reader. -/
structure Ledger.Entry (b : Ledger) (owed : Finset Nat) (region : Region) (cycle : Nat) (i : Nat)
    (s : Seat) (e : Attendance) : Prop where
  /-- one that took a permit stays away from the others -/
  of_taker : i ∈ b.takers → e.joined < cycle ∧ ¬s.reader.Reaches region
  taker_of_last : e.last = some cycle → i ∈ b.takers
  owed_of_present : s.state = .taken → e.joined < cycle → i ∉ b.takers → i ∈ owed
  /-- one that confirmed its copy gets no other -/
  of_confirmed : i ∈ b.confirmed → e.reading = none ∧ s.reader.lag? region.epoch ≠ none

structure Balanced (b : Ledger) (owed : Finset Nat) (r : Room) (l : Log) : Prop where
  conserved : l.stage = .opened → r.region.permits + b.takers.length = b.released
  released_eq : l.stage = .opened → b.released = min r.master.live Semaphore.maxCount
  empty_of_closed : l.stage ≠ .opened → b = .empty
  takers_nodup : b.takers.Nodup
  takers_lt : ∀ i ∈ b.takers, i < r.seats.length
  confirmed_lt : ∀ i ∈ b.confirmed, i < r.seats.length
  confirmed_nodup : b.confirmed.Nodup
  of_confirmed : ∀ i ∈ b.confirmed, i ∈ b.takers ∨ i ∈ owed
  readDone_eq : r.region.readDone = UInt64.ofNat b.confirmed.length
  owed_le : r.master.live ≤ Semaphore.maxCount →
    owed.card ≤ if l.stage = .opened then r.region.permits else r.master.live
  entry : ∀ (i : Nat) (s : Seat) (e : Attendance), r.seats[i]? = some s → l.readers[i]? = some e →
    b.Entry owed r.region l.cycle i s e

/-- A reader that goes for a permit joined before the cycle. -/
theorem Attendance.Follows.joined_lt_of_reaches {c : Nat → List UInt8} {cycle : Nat} {stage : Stage}
    {e : Attendance} {r : Reader} {region : Region} (h : e.Follows c cycle stage r)
    (hepoch : region.epoch = UInt32.ofNat cycle) (hreaches : r.Reaches region) :
    e.joined < cycle := by
  rcases hreaches with hphase | ⟨hne, hlag⟩
  · cases hlast : e.last with
    | none => exact h.joined_lt hphase hlast
    | some k => exact Nat.lt_of_lt_of_le (h.last_le k hlast).1 (h.last_le k hlast).2
  · rw [hepoch] at hne hlag
    exact (h.of_passed (.inr hne) hlag).1

namespace Ledger.Entry

variable {b : Ledger} {owed : Finset Nat} {region : Region} {cycle i : Nat} {s : Seat}
  {e : Attendance}

/-- Of the region only the epoch matters to a reader that goes for a permit. -/
theorem of_epoch (h : b.Entry owed region cycle i s e) {region' : Region}
    (hepoch : region'.epoch = region.epoch) : b.Entry owed region' cycle i s e :=
  { h with
    of_taker := fun hmem => by
      rw [Reader.Reaches, hepoch]
      exact h.of_taker hmem
    of_confirmed := fun hmem => by
      rw [hepoch]
      exact h.of_confirmed hmem }

/-- The reader takes no step towards a permit, and does not come back to its seat. -/
theorem of_seat (h : b.Entry owed region cycle i s e) (s' : Seat)
    (hstate : s'.state = .taken → s.state = .taken)
    (hreaches : s'.reader.Reaches region → s.reader.Reaches region)
    (hlag : s'.reader.lag? region.epoch = s.reader.lag? region.epoch) :
    b.Entry owed region cycle i s' e :=
  { h with
    of_taker := fun hmem => ⟨(h.of_taker hmem).1, mt hreaches (h.of_taker hmem).2⟩
    owed_of_present := fun htaken => h.owed_of_present (hstate htaken)
    of_confirmed := fun hmem => ⟨(h.of_confirmed hmem).1, hlag ▸ (h.of_confirmed hmem).2⟩ }

theorem confirm (h : b.Entry owed region cycle i s e) :
    b.Entry owed region cycle i s { e with reading := none } :=
  { h with of_confirmed := fun hmem => ⟨rfl, (h.of_confirmed hmem).2⟩ }

end Ledger.Entry

/-! ## Readers one by one -/

/-- What holds of every reader with its attendance is kept if one of them is set anew. -/
theorem forall_reseat {P Q : Nat → Seat → Attendance → Prop} {seats : List Seat}
    {readers : List Attendance} {i : Nat} {s s' : Seat} {f : Attendance → Attendance}
    (hseat : seats[i]? = some s)
    (h : ∀ j t e, seats[j]? = some t → readers[j]? = some e → P j t e)
    (hself : ∀ e, readers[i]? = some e → P i s e → Q i s' (f e))
    (hother : ∀ j t e, i ≠ j → P j t e → Q j t e) :
    ∀ j t e, (seats.set i s')[j]? = some t → (readers.modify i f)[j]? = some e → Q j t e := by
  intro j t e ht he
  by_cases hij : i = j
  · subst hij
    rw [List.getElem?_set_self (List.getElem?_eq_some_iff.1 hseat).1] at ht
    rw [List.getElem?_modify_eq] at he
    rcases Option.map_eq_some_iff.1 he with ⟨e₀, he₀, rfl⟩
    cases ht
    exact hself e₀ he₀ (h i s e₀ hseat he₀)
  · rw [List.getElem?_set_ne hij] at ht
    rw [List.getElem?_modify_ne _ _ hij] at he
    exact hother j t e hij (h j t e ht he)

/-- What holds of every reader with its attendance is kept if it holds of one that joins. -/
theorem forall_join {P : Nat → Seat → Attendance → Prop} {seats : List Seat}
    {readers : List Attendance} {s : Seat} {e : Attendance} (hlength : readers.length = seats.length)
    (h : ∀ j t e, seats[j]? = some t → readers[j]? = some e → P j t e)
    (hnew : P seats.length s e) :
    ∀ j t e', (seats ++ [s])[j]? = some t → (readers ++ [e])[j]? = some e' → P j t e' := by
  intro j t e' ht he
  rcases of_getElem?_concat ht with hold | ⟨rfl, rfl⟩
  · rw [List.getElem?_append_left (hlength ▸ (List.getElem?_eq_some_iff.1 hold).1)] at he
    exact h j t e' hold he
  · rw [← hlength, List.getElem?_concat_length] at he
    cases he
    exact hnew

namespace Balanced

variable {c : Nat → List UInt8} {capacity : Nat} {r : Room} {l : Log} {b : Ledger}
  {owed : Finset Nat} {i : Nat} {s : Seat}

theorem start (capacity : Nat) (name : String) :
    Balanced .empty ∅ (fresh capacity name) .fresh where
  conserved := nofun
  released_eq := nofun
  empty_of_closed _ := rfl
  takers_nodup := .nil
  takers_lt := nofun
  confirmed_lt := nofun
  confirmed_nodup := .nil
  of_confirmed := nofun
  readDone_eq := rfl
  owed_le _ := Nat.le_refl 0
  entry i s e hs := by cases hs

/-! ## Steps of the master -/

/-- The cycle is owed to the readers present when it is begun. -/
theorem forbid (b : Ledger) (hr : Consistent c capacity r l)
    (hpresent : r.present.card ≤ (r.step .forbid).2.master.live) :
    Balanced (b.note r .forbid) r.present (r.step .forbid).2
      (l.note .forbid (r.step .forbid).1) where
  conserved := nofun
  released_eq := nofun
  empty_of_closed _ := rfl
  takers_nodup := .nil
  takers_lt := nofun
  confirmed_lt := nofun
  confirmed_nodup := .nil
  of_confirmed := nofun
  readDone_eq := rfl
  owed_le _ := hpresent
  entry j t e ht he :=
    { of_taker := nofun
      taker_of_last := by
        intro hlast
        have hle := ((hr.follows j t e ht he).last_le _ hlast).2
        exact absurd hle (Nat.not_succ_le_self l.cycle)
      owed_of_present := fun htaken _ _ => mem_present.2 ⟨t, ht, htaken⟩
      of_confirmed := nofun }

theorem write (h : Balanced b owed r l) (content : List UInt8)
    (hs : l.Allows c (.write content)) :
    Balanced (b.note r (.write content)) owed (r.step (.write content)).2
      (l.note (.write content) (r.step (.write content)).1) := by
  have hclosed : l.stage ≠ .opened := by rw [hs.1]; decide
  have hempty : b = .empty := h.empty_of_closed hclosed
  have howed := h.owed_le
  rw [if_neg hclosed] at howed
  rw [Room.step, Region.write]
  by_cases hfits : content.length ≤ r.region.capacity
  · rw [dif_pos hfits]
    exact
      { h with
        conserved := by rintro ⟨⟩
        released_eq := by rintro ⟨⟩
        empty_of_closed := fun _ => hempty
        owed_le := howed
        entry := fun j t e ht he => { h.entry j t e ht he with } }
  · rw [dif_neg hfits]
    exact
      { h with
        conserved := by rintro ⟨⟩
        released_eq := by rintro ⟨⟩
        empty_of_closed := fun _ => hempty
        owed_le := howed }

theorem permit (h : Balanced b owed r l) (hr : Consistent c capacity r l)
    (hs : l.Allows c .permit) :
    Balanced (b.note r .permit) owed (r.step .permit).2 (l.note .permit (r.step .permit).1) := by
  have hstage : l.stage = .written := hs
  have hclosed : l.stage ≠ .opened := by rw [hstage]; exact nofun
  have hpermits := hr.permits_of_closed hclosed
  have hreleased : (r.step .permit).2.region.permits = min r.master.live Semaphore.maxCount := by
    rw [Room.step, r.master.permitRead_eq hpermits]
    rfl
  have hempty := h.empty_of_closed hclosed
  have howed := h.owed_le
  rw [if_neg hclosed] at howed
  subst hempty
  exact
    { h with
      conserved := fun _ => by
        rw [Ledger.note, Ledger.release, hpermits]
        rfl
      released_eq := fun _ => by
        rw [Ledger.note, Ledger.release, hpermits]
        exact hreleased
      empty_of_closed := fun hnot => absurd rfl hnot
      owed_le := fun hlive => by
        have hall : (r.step .permit).2.region.permits = r.master.live :=
          hreleased.trans (Nat.min_eq_left hlive)
        rw [hall]
        exact howed hlive
      entry := fun j t e ht he => { h.entry j t e ht he with } }

/-! ## Steps of readers -/

/-- A reader that joins has no part in the current cycle. -/
theorem join (h : Balanced b owed r l) (hr : Consistent c capacity r l)
    (hroom : l.joins + 1 < Admission.epochs) (forked : Bool) :
    Balanced b owed (r.join forked).2
      { l with joins := l.joins + 1, readers := l.readers ++ [⟨l.cycle, [], none⟩] } := by
  have hlive : (r.join forked).2.master.live = r.master.live := by cases forked <;> rfl
  have hnew : r.seats.length ∉ b.takers := fun hmem => Nat.lt_irrefl _ (h.takers_lt _ hmem)
  have hunconfirmed : r.seats.length ∉ b.confirmed := fun hmem =>
    Nat.lt_irrefl _ (h.confirmed_lt _ hmem)
  have hseats : (r.join forked).2.seats
      = r.seats ++ [⟨(Reader.join r.region).1, forked, .taken, none⟩] := rfl
  have hepoch : (r.join forked).2.region.epoch = r.region.epoch :=
    (hr.admission.register hroom).2.epoch_eq.trans hr.epoch_eq.symm
  exact
    { h with
      released_eq := fun hopened => hlive.symm ▸ h.released_eq hopened
      takers_lt := by
        intro j hj
        rw [hseats, List.length_append]
        exact Nat.lt_add_right 1 (h.takers_lt j hj)
      confirmed_lt := by
        intro j hj
        rw [hseats, List.length_append]
        exact Nat.lt_add_right 1 (h.confirmed_lt j hj)
      owed_le := hlive.symm ▸ h.owed_le
      entry := by
        rw [hseats]
        refine forall_join hr.length_eq (fun j t e ht he => (h.entry j t e ht he).of_epoch hepoch) ?_
        exact
          { of_taker := fun hmem => absurd hmem hnew
            taker_of_last := nofun
            owed_of_present := fun _ hlt => absurd hlt (Nat.lt_irrefl _)
            of_confirmed := fun hmem => absurd hmem hunconfirmed } }

/-- A call of a reader that neither takes a permit nor counts. -/
theorem reseat (h : Balanced b owed r l) (hseat : r.seats[i]? = some s) (s' : Seat)
    (f : Attendance → Attendance)
    (hentry : ∀ e : Attendance, b.Entry owed r.region l.cycle i s e →
      b.Entry owed r.region l.cycle i s' (f e))
    {region : Region} (hpermits : region.permits = r.region.permits)
    (hepoch : region.epoch = r.region.epoch) (hdone : region.readDone = r.region.readDone) :
    Balanced b owed { r with region := region, seats := r.seats.set i s' }
      { l with readers := l.readers.modify i f } :=
  { h with
    conserved := by
      rw [hpermits]
      exact h.conserved
    takers_lt := by
      rw [List.length_set]
      exact h.takers_lt
    confirmed_lt := by
      rw [List.length_set]
      exact h.confirmed_lt
    readDone_eq := hdone.trans h.readDone_eq
    owed_le := by
      rw [hpermits]
      exact h.owed_le
    entry := forall_reseat hseat h.entry (fun e _ he => (hentry e he).of_epoch hepoch)
      fun j t e _ he => he.of_epoch hepoch }

/-- A call of a reader that leaves its attendance as it is. -/
theorem reseat_same (h : Balanced b owed r l) (hseat : r.seats[i]? = some s) (s' : Seat)
    (hentry : ∀ e : Attendance, b.Entry owed r.region l.cycle i s e →
      b.Entry owed r.region l.cycle i s' e)
    {region : Region} (hpermits : region.permits = r.region.permits)
    (hepoch : region.epoch = r.region.epoch) (hdone : region.readDone = r.region.readDone) :
    Balanced b owed { r with region := region, seats := r.seats.set i s' } l := by
  have hsame := h.reseat hseat s' id hentry hpermits hepoch hdone
  rw [List.modify_id] at hsame
  exact hsame

/-- A reader takes a permit that was owed to it. -/
theorem take (h : Balanced b owed r l) (hr : Consistent c capacity r l)
    (hseat : r.seats[i]? = some s) (htaken : s.state = .taken) {left : Nat}
    (hleft : r.region.permits = left + 1) (hreaches : s.reader.Reaches r.region) (s' : Seat)
    (f : Attendance → Attendance) (hgone : ¬s'.reader.Reaches r.region)
    (hjoined : ∀ e, (f e).joined = e.joined)
    (hconfirmed : ∀ e, e.reading = none → s.reader.lag? r.region.epoch ≠ none →
      (f e).reading = none ∧ s'.reader.lag? r.region.epoch ≠ none) :
    Balanced { b with takers := i :: b.takers } (owed.erase i)
      { r with region := r.region.withPermits left, seats := r.seats.set i s' }
      { l with readers := l.readers.modify i f } := by
  have hi : i < r.seats.length := (List.getElem?_eq_some_iff.1 hseat).1
  have hopened : l.stage = .opened :=
    hr.opened_of_permits (by rw [hleft]; exact Nat.succ_ne_zero left)
  have hjoins : ∀ e, l.readers[i]? = some e → e.joined < l.cycle := fun e he =>
    (hr.follows i s e hseat he).joined_lt_of_reaches hr.epoch_eq hreaches
  have he := List.getElem?_eq_getElem (hr.length_eq ▸ hi)
  have hentry := h.entry i s _ hseat he
  have hfirst : i ∉ b.takers := fun hmem => (hentry.of_taker hmem).2 hreaches
  have howed : i ∈ owed := hentry.owed_of_present htaken (hjoins _ he) hfirst
  have hconserved := h.conserved hopened
  have hle := h.owed_le
  rw [if_pos hopened, ← Finset.card_erase_add_one howed, hleft] at hle
  exact
    { conserved := fun _ => by
        rw [hleft, Nat.succ_add] at hconserved
        exact hconserved
      released_eq := h.released_eq
      empty_of_closed := fun hclosed => absurd hopened hclosed
      takers_nodup := h.takers_nodup.cons hfirst
      takers_lt := by
        intro j hj
        rw [List.length_set]
        rcases List.mem_cons.1 hj with rfl | hj
        · exact hi
        · exact h.takers_lt j hj
      confirmed_lt := by
        rw [List.length_set]
        exact h.confirmed_lt
      confirmed_nodup := h.confirmed_nodup
      of_confirmed := by
        intro j hj
        by_cases hij : j = i
        · exact .inl (hij ▸ List.mem_cons_self)
        · rcases h.of_confirmed j hj with hmem | hmem
          · exact .inl (List.mem_cons_of_mem i hmem)
          · exact .inr (Finset.mem_erase.2 ⟨hij, hmem⟩)
      readDone_eq := h.readDone_eq
      owed_le := by
        intro hlive
        rw [if_pos hopened]
        exact Nat.le_of_succ_le_succ (hle hlive)
      entry := forall_reseat hseat h.entry
        (fun e he hentry =>
          { of_taker := fun _ => ⟨hjoined e ▸ hjoins e he, hgone⟩
            taker_of_last := fun _ => List.mem_cons_self
            owed_of_present := fun _ _ hmem => absurd List.mem_cons_self hmem
            of_confirmed := fun hmem =>
              hconfirmed e (hentry.of_confirmed hmem).1 (hentry.of_confirmed hmem).2 })
        fun j t e hij he =>
          { of_taker := fun hmem => he.of_taker (List.mem_of_ne_of_mem (Ne.symm hij) hmem)
            taker_of_last := fun hlast => List.mem_cons_of_mem i (he.taker_of_last hlast)
            owed_of_present := fun htaken hlt hmem =>
              Finset.mem_erase.2 ⟨Ne.symm hij,
                he.owed_of_present htaken hlt fun hj => hmem (List.mem_cons_of_mem i hj)⟩
            of_confirmed := he.of_confirmed } }

/-- A reader confirms its copy of the cycle. -/
theorem count (h : Balanced b owed r l) (hr : Consistent c capacity r l)
    (hseat : r.seats[i]? = some s) (htaken : s.state = .taken) (s' : Seat)
    (hreaches : s'.reader.Reaches r.region → s.reader.Reaches r.region)
    (hlag : s'.reader.lag? r.region.epoch = s.reader.lag? r.region.epoch)
    (hopened : l.stage = .opened)
    (hreading : ∀ e, l.readers[i]? = some e →
      ∃ k, e.reading = some k ∧ r.region.epoch = UInt32.ofNat k) :
    Balanced { b with confirmed := i :: b.confirmed } owed
      { r with
        region := { r.region with readDone := r.region.readDone + 1 }
        seats := r.seats.set i s' }
      { l with readers := l.readers.modify i fun e => { e with reading := none } } := by
  have hi : i < r.seats.length := (List.getElem?_eq_some_iff.1 hseat).1
  have he := List.getElem?_eq_getElem (hr.length_eq ▸ hi)
  have hentry := h.entry i s _ hseat he
  have hfollows := hr.follows i s _ hseat he
  rcases hreading _ he with ⟨k, hk, hepoch⟩
  have hlast := hfollows.last_of_reading k hk
  have hjoined := Nat.lt_of_lt_of_le (hfollows.last_le k hlast).1 (hfollows.last_le k hlast).2
  have hbehind := hfollows.lag?_ne_none hlast hepoch
  have hfirst : i ∉ b.confirmed := by
    intro hmem
    have hnone := (hentry.of_confirmed hmem).1
    rw [hk] at hnone
    cases hnone
  exact
    { h with
      empty_of_closed := fun hclosed => absurd hopened hclosed
      takers_lt := by
        rw [List.length_set]
        exact h.takers_lt
      confirmed_lt := by
        intro j hj
        rw [List.length_set]
        rcases List.mem_cons.1 hj with rfl | hj
        · exact hi
        · exact h.confirmed_lt j hj
      confirmed_nodup := h.confirmed_nodup.cons hfirst
      of_confirmed := by
        intro j hj
        rcases List.mem_cons.1 hj with rfl | hj
        -- without a permit of this cycle the copy is one of a cycle that the numbers came round to
        · by_cases hmem : j ∈ b.takers
          · exact .inl hmem
          · exact .inr (hentry.owed_of_present htaken hjoined hmem)
        · exact h.of_confirmed j hj
      readDone_eq := by
        rw [List.length_cons, UInt64.ofNat_add, ← h.readDone_eq, UInt64.ofNat_one]
      entry := forall_reseat hseat h.entry
        (fun e _ he =>
          { he.of_seat s' (fun _ => htaken) hreaches hlag with
            of_confirmed := fun _ => ⟨rfl, hlag ▸ hbehind⟩ })
        fun j t e hij he =>
          { he with
            of_confirmed := fun hmem => he.of_confirmed (List.mem_of_ne_of_mem (Ne.symm hij) hmem) } }

theorem wait (h : Balanced b owed r l) (hr : Consistent c capacity r l)
    (hseat : r.seats[i]? = some s) (htaken : s.state = .taken) :
    ∃ owed', Balanced (b.take i r.region.permits (r.wait i s).2.region.permits) owed'
      (r.wait i s).2 (l.note (.wait i) (r.wait i s).1) := by
  have hopen : r.region.permits ≠ 0 → r.region.isOpen = true := fun hne =>
    hr.isOpen_iff.2 (hr.opened_of_permits hne)
  have hattempted : s.reader.Attempted r.region (s.reader.wait r.region) :=
    Reader.wait_attempted hopen
  rw [Room.wait]
  generalize s.reader.wait r.region = answer at hattempted ⊢
  cases hattempted with
  | asleep hphase hepoch =>
      dsimp only [Room.reseat]
      rw [Ledger.take_self]
      refine ⟨owed, h.reseat_same hseat { s with reader := { s.reader with phase := .forEpoch } }
        (fun _ he => he.of_seat _ id ?_ rfl) rfl rfl rfl⟩
      rintro (hpermit | hreaches)
      · cases hpermit
      · exact .inr hreaches
  | missed hphase hepoch e he =>
      dsimp only [Room.reseat]
      rw [Ledger.take_self]
      refine ⟨owed, h.reseat_same hseat
        { s with reader := { s.reader with phase := .idle }, fault := some e }
        (fun _ he => he.of_seat _ id ?_ rfl) rfl rfl rfl⟩
      rintro (hpermit | hreaches)
      · cases hpermit
      · exact .inr hreaches
  | starved hreaches hpermits =>
      dsimp only [Room.reseat]
      rw [Ledger.take_self]
      exact ⟨owed, h.reseat_same hseat { s with reader := { s.reader with phase := .forPermit } }
        (fun _ he => he.of_seat _ id (fun _ => hreaches) rfl) rfl rfl rfl⟩
  | late hphase left hleft e he =>
      dsimp only [Room.reseat]
      rw [hleft, Region.permits_withPermits, Ledger.take_succ]
      have htake := h.take hr hseat htaken hleft (.inl hphase)
        { s with reader := { s.reader with phase := .idle }, fault := some e } id ?_ (fun _ => rfl)
        fun _ hnone hbehind => ⟨hnone, hbehind⟩
      · rw [List.modify_id] at htake
        exact ⟨owed.erase i, htake⟩
      · rintro (hpermit | ⟨-, hlag⟩)
        · cases hpermit
        · have hnone : s.reader.lag? r.region.epoch = none := hlag
          rw [he] at hnone
          cases hnone
  | served hreaches left hleft hlag =>
      dsimp only [Room.reseat]
      rw [hleft, Region.permits_withPermits, Ledger.take_succ]
      refine ⟨owed.erase i, h.take hr hseat htaken hleft hreaches
        { s with reader := s.reader.served r.region, fault := none } _ ?_ (fun _ => rfl)
        fun _ _ hbehind => absurd hlag hbehind⟩
      rintro (hpermit | ⟨hepoch, -⟩)
      · cases hpermit
      · exact hepoch rfl

theorem finish (h : Balanced b owed r l) (hr : Consistent c capacity r l)
    (hseat : r.seats[i]? = some s) (htaken : s.state = .taken) :
    Balanced (b.confirm i (r.finish i s).1) owed (r.finish i s).2
      (l.note (.done i) (r.finish i s).1) := by
  have hconfirm : ∀ reader fault, (reader.Reaches r.region → s.reader.Reaches r.region) →
      reader.lag? r.region.epoch = s.reader.lag? r.region.epoch →
      Balanced b owed (r.reseat i s reader fault r.region)
        { l with readers := l.readers.modify i fun e => { e with reading := none } } :=
    fun reader fault hreaches hlag => h.reseat hseat { s with reader := reader, fault := fault } _
      (fun _ he =>
        (he.of_seat { s with reader := reader, fault := fault } id hreaches hlag).confirm)
      rfl rfl rfl
  rw [Room.finish, Reader.finish]
  cases hreading : s.reader.reading with
  | none => exact hconfirm s.reader (some .notReading) id rfl
  | some mark =>
      dsimp only
      by_cases hcurrent : r.region.sequence = mark.sequence ∧ r.region.epoch = mark.epoch
      · rw [if_pos hcurrent]
        -- the reader's mark is what the log says it read, so the region still shows that cycle
        have hcopy : ∀ e, l.readers[i]? = some e → ∃ k, e.reading = some k
            ∧ r.region.sequence = UInt64.ofNat k ∧ r.region.epoch = UInt32.ofNat k := by
          intro e he
          have hmark := (hr.follows i s e hseat he).reading_eq
          rw [hreading] at hmark
          rcases Option.map_eq_some_iff.1 hmark.symm with ⟨k, hk, rfl⟩
          exact ⟨k, hk, hcurrent⟩
        have hi := (List.getElem?_eq_some_iff.1 hseat).1
        have he := List.getElem?_eq_getElem (hr.length_eq ▸ hi)
        have hfollows := hr.follows i s _ hseat he
        rcases hcopy _ he with ⟨k, hk, hsequence, hepoch⟩
        have hopened := (hr.of_mark hfollows hk hsequence hepoch).1
        refine h.count hr hseat htaken
          { s with reader := { s.reader with reading := none }, fault := none } id rfl hopened ?_
        intro e he
        rcases hcopy e he with ⟨k, hk, -, hepoch⟩
        exact ⟨k, hk, hepoch⟩
      · rw [if_neg hcurrent]
        exact hconfirm { s.reader with reading := none } _ id rfl

/-- A call on a seat, with the notes that the log and the ledger take of it. -/
theorem onSeat (h : Balanced b owed r l) (i : Nat) (call : Seat → Reply × Room)
    (note : Reply → Log) (noteLedger : Reply × Room → Ledger) (hnothing : note .nothing = l)
    (hsame : noteLedger (.nothing, r) = b)
    (hcall : ∀ s, r.seats[i]? = some s → s.state = .taken →
      ∃ owed', Balanced (noteLedger (call s)) owed' (call s).2 (note (call s).1)) :
    ∃ owed', Balanced (noteLedger (r.onSeat i call)) owed' (r.onSeat i call).2
      (note (r.onSeat i call).1) := by
  apply onSeat_cases
    (P := fun answer => ∃ owed', Balanced (noteLedger answer) owed' answer.2 (note answer.1))
  · rw [hnothing, hsame]
    exact ⟨owed, h⟩
  · exact hcall

/-- A call of a reader that leaves the region's permits and its own words alone. -/
theorem move (h : Balanced b owed r l) (i : Nat) (call : Seat → Reply × Room)
    (hcall : ∀ s, s.state = .taken → ∃ s' region,
      (call s).2 = { r with region := region, seats := r.seats.set i s' }
        ∧ s'.reader = s.reader ∧ region.permits = r.region.permits
        ∧ region.epoch = r.region.epoch ∧ region.readDone = r.region.readDone) :
    ∃ owed', Balanced b owed' (r.onSeat i call).2 l := by
  refine h.onSeat i call (fun _ => l) (fun _ => b) rfl rfl fun s hseat htaken => ?_
  rcases hcall s htaken with ⟨s', region, hroom, hreader, hpermits, hepoch, hdone⟩
  have hentry : ∀ e, b.Entry owed r.region l.cycle i s e →
      b.Entry owed r.region l.cycle i s' e := by
    intro e he
    apply he.of_seat s' (fun _ => htaken)
    · intro hreaches
      rw [Reader.Reaches, hreader] at hreaches
      exact hreaches
    · rw [hreader]
  rw [hroom]
  exact ⟨owed, h.reseat_same hseat s' hentry hpermits hepoch hdone⟩

theorem step (h : Balanced b owed r l) (hr : Consistent c capacity r l)
    (hpresent : r.present.card ≤ (r.step .forbid).2.master.live) (s : Step)
    (hs : l.Allows c s) :
    ∃ owed', Balanced (b.note r s) owed' (r.step s).2 (l.note s (r.step s).1) := by
  cases s with
  | forbid => exact ⟨_, forbid b hr hpresent⟩
  | write content => exact ⟨_, h.write content hs⟩
  | permit => exact ⟨_, h.permit hr hs⟩
  | broadcast content => exact hs.elim
  | subscribe => exact ⟨_, h.join hr hs false⟩
  | spawn => exact ⟨_, h.join hr hs true⟩
  | wait i =>
      exact h.onSeat i (r.wait i) (l.note (.wait i))
        (fun answer => b.take i r.region.permits answer.2.region.permits) rfl
        (b.take_self i r.region.permits) fun s hseat htaken => h.wait hr hseat htaken
  | done i =>
      exact h.onSeat i (r.finish i) (l.note (.done i))
        (fun answer => b.confirm i answer.1) rfl rfl
        fun s hseat htaken => ⟨owed, h.finish hr hseat htaken⟩
  | content i =>
      exact h.move i (r.view i) fun s _ => ⟨_, r.region, rfl, rfl, rfl, rfl, rfl⟩
  | receive i => exact hs.elim
  | leave i => exact h.move i _ fun s _ => ⟨_, r.region.depart, rfl, rfl, rfl, rfl, rfl⟩
  | exit i => exact h.move i _ fun s _ => ⟨_, r.region.depart, rfl, rfl, rfl, rfl, rfl⟩
  | panic i => exact h.move i _ fun s _ => ⟨_, r.region.depart, rfl, rfl, rfl, rfl, rfl⟩
  | kill i => exact h.move i _ fun s _ => ⟨_, r.region, rfl, rfl, rfl, rfl, rfl⟩

/-- A permit is left for a reader that has a right to it. -/
theorem permits_pos (h : Balanced b owed r l) (hopened : l.stage = .opened)
    (hlive : r.master.live ≤ Semaphore.maxCount) (hmem : i ∈ owed) : 0 < r.region.permits := by
  have hle := h.owed_le hlive
  rw [if_pos hopened] at hle
  exact Nat.lt_of_lt_of_le (Finset.card_pos.2 ⟨i, hmem⟩) hle

/-- Those that confirmed took a permit or are still owed one. -/
theorem confirmed_le (h : Balanced b owed r l) (hlive : r.master.live ≤ Semaphore.maxCount) :
    b.confirmed.length ≤ b.released := by
  by_cases hopened : l.stage = .opened
  · have howed := h.owed_le hlive
    rw [if_pos hopened] at howed
    have hsubset : b.confirmed.toFinset ⊆ b.takers.toFinset ∪ owed := by
      intro i hi
      rcases h.of_confirmed i (List.mem_toFinset.1 hi) with hmem | hmem
      · exact Finset.mem_union_left _ (List.mem_toFinset.2 hmem)
      · exact Finset.mem_union_right _ hmem
    calc
      b.confirmed.length = b.confirmed.toFinset.card :=
        (List.toFinset_card_of_nodup h.confirmed_nodup).symm
      _ ≤ (b.takers.toFinset ∪ owed).card := Finset.card_le_card hsubset
      _ ≤ b.takers.toFinset.card + owed.card := Finset.card_union_le _ _
      _ ≤ b.takers.length + r.region.permits :=
        Nat.add_le_add (List.toFinset_card_le b.takers) howed
      _ = r.region.permits + b.takers.length := Nat.add_comm _ _
      _ = b.released := h.conserved hopened
  · rw [h.empty_of_closed hopened]
    exact Nat.le_refl 0

end Balanced

/-! ## Along a run -/

/-- The invariants hold all along: those of the log, of the headcount and of the ledger. -/
theorem Audited.balanced {c : Nat → List UInt8} {capacity : Nat} {r : Room} {l : Log} {b : Ledger}
    (h : Audited c capacity r l b) (hc : ∀ i, (c i).length ≤ capacity) :
    Covered r l ∧ ∃ owed, Balanced b owed r l := by
  induction h with
  | start name => exact ⟨.start capacity name, ∅, .start capacity name⟩
  | step h s hs ih =>
      rcases ih with ⟨hcovered, owed, hbalanced⟩
      have hconsistent := h.scheduled.consistent hc
      have hpending := hconsistent.admission.pending_eq
      have hpresent := (hcovered.forbid hpending).2
      exact ⟨hcovered.step hpending s hs, hbalanced.step hconsistent hpresent s hs⟩

/-- What a reader with a right to a permit of the open cycle is to be told: the content, or that it
fell behind. -/
def Attendance.due (e : Attendance) (c : Nat → List UInt8) (cycle : Nat) : Reply :=
  match e.last with
  | none => .content (c cycle)
  | some k =>
      if k + 1 = cycle then .content (c cycle)
      else .failed (.lagged (UInt32.ofNat k) (UInt32.ofNat cycle))

namespace Attendance.Follows

variable {c : Nat → List UInt8} {cycle : Nat} {stage : Stage} {e : Attendance} {r : Reader}

/-- A reader that did not read the cycle is not at its epoch. -/
theorem consumed_ne (h : e.Follows c cycle stage r) (hjoined : e.joined < cycle)
    (hunread : e.last ≠ some cycle) (hnear : cycle < e.last.getD e.joined + Admission.epochs) :
    UInt32.ofNat cycle ≠ r.consumed := by
  have hbefore : e.last.getD e.joined < cycle := by
    cases hlast : e.last with
    | none => exact hjoined
    | some k =>
        refine Nat.lt_of_le_of_ne (h.last_le k hlast).2 fun heq => hunread ?_
        rw [hlast]
        exact congrArg some heq
  rw [h.consumed_eq]
  intro heq
  have hmod := Admission.uint32_ofNat_inj.1 heq
  simp only [Admission.epochs] at *
  omega

/-- Whether a reader fell behind decides what is due to it. -/
theorem due_eq (h : e.Follows c cycle stage r) (hunread : e.last ≠ some cycle)
    (hnear : cycle < e.last.getD e.joined + Admission.epochs) :
    e.due c cycle = match r.lag? (UInt32.ofNat cycle) with
      | none => .content (c cycle)
      | some error => .failed error := by
  rw [due]
  cases hlast : e.last with
  | none =>
      have hnone : r.lag? (UInt32.ofNat cycle) = none := by
        rw [Reader.lag?, h.admitted_eq, hlast]
        exact if_neg fun hlag => Bool.noConfusion hlag.1
      rw [hnone]
  | some k =>
      dsimp only
      by_cases hnext : k + 1 = cycle
      · have hnone : r.lag? (UInt32.ofNat cycle) = none := by
          rw [Reader.lag?, h.consumed_eq, hlast, ← hnext, UInt32.ofNat_add]
          exact if_neg fun hlag => hlag.2 rfl
        rw [if_pos hnext, hnone]
      · have hle := (h.last_le k hlast).2
        have hne : k ≠ cycle := fun heq => hunread (hlast.trans (congrArg some heq))
        rw [hlast] at hnear
        rw [if_neg hnext, h.lag?_eq hlast (by omega) hnear]

end Attendance.Follows

/-- A reader with a right to a permit is told what is due to it. -/
theorem Balanced.wait_eq_due {c : Nat → List UInt8} {capacity : Nat} {r : Room} {l : Log}
    {b : Ledger} {owed : Finset Nat} (h : Balanced b owed r l) (hr : Consistent c capacity r l)
    {i : Nat} {s : Seat} {e : Attendance} (hseat : r.seats[i]? = some s)
    (he : l.readers[i]? = some e) (hopened : l.stage = .opened) (hjoined : e.joined < l.cycle)
    (hfirst : i ∉ b.takers) (hpermits : 0 < r.region.permits)
    (hnear : l.cycle < e.last.getD e.joined + Admission.epochs) :
    (r.wait i s).1 = e.due c l.cycle := by
  have hfollows := hr.follows i s e hseat he
  have hunread : e.last ≠ some l.cycle := mt (h.entry i s e hseat he).taker_of_last hfirst
  have hawake := hfollows.consumed_ne hjoined hunread hnear
  have hattempted : s.reader.Attempted r.region (s.reader.wait r.region) :=
    Reader.wait_attempted fun _ => hr.isOpen_iff.2 hopened
  rw [hfollows.due_eq hunread hnear, ← hr.epoch_eq, Room.wait]
  rw [← hr.epoch_eq] at hawake
  generalize s.reader.wait r.region = answer at hattempted ⊢
  cases hattempted with
  | asleep hphase hepoch => exact absurd hepoch hawake
  | missed hphase hepoch error herror => rw [herror]
  | starved hreaches hzero => exact absurd hpermits (hzero ▸ Nat.lt_irrefl 0)
  | late hphase left hleft error herror => rw [herror]
  | served hreaches left hleft hlag =>
      rw [hlag]
      exact congrArg Reply.content (hr.content_eq (.inr hopened))

/-- A permit call succeeds exactly if the semaphore can count the live readers. -/
theorem Consistent.permit_answer {c : Nat → List UInt8} {capacity : Nat} {r : Room} {l : Log}
    (h : Consistent c capacity r l) (hwritten : l.stage = .written) :
    (r.step .permit).1 =
      if r.master.live ≤ Semaphore.maxCount then .nothing
      else .failed (.semaphore "sem_post" r.region.wait.name) := by
  have hclosed : l.stage ≠ .opened := by
    rw [hwritten]
    exact nofun
  rw [Room.step, r.master.permitRead_eq (h.permits_of_closed hclosed)]
  dsimp only
  split
  · rfl
  · rfl

/-- Permits are conserved, and nobody goes without one.  While a cycle is open, the permits left and
those taken are the ones posted: one for each live reader, if the call that posts them succeeds, which
it does as long as the semaphore can count them.  While no cycle is open, there are none.  A reader
takes at most one in a cycle, and none in the cycle in which it joined.  One that is present, joined
before and did not take its permit finds one, if the call succeeded, and its wait is answered.  The
readers counted as done are those that confirmed their copy, then at most as many as there were
permits.

An epoch is a word of 32 bits, so the answer to a reader is the right one as long as fewer than
`Admission.epochs` cycles were begun since it last read, or since it joined. -/
theorem Audited.permits_conserved {c : Nat → List UInt8} {capacity : Nat} {r : Room} {l : Log}
    {b : Ledger} (h : Audited c capacity r l b) (hc : ∀ i, (c i).length ≤ capacity) :
    (l.stage = .written → (r.step .permit).1 =
        if r.master.live ≤ Semaphore.maxCount then .nothing
        else .failed (.semaphore "sem_post" r.region.wait.name))
      ∧ (l.stage = .opened →
        r.region.permits + b.takers.length = b.released
          ∧ b.released = min r.master.live Semaphore.maxCount)
      ∧ (l.stage ≠ .opened → r.region.permits = 0)
      ∧ b.takers.Nodup
      ∧ (∀ i ∈ b.takers, ∃ e, l.readers[i]? = some e ∧ e.joined < l.cycle)
      ∧ (r.master.live ≤ Semaphore.maxCount →
        ∀ i s e, r.seats[i]? = some s → s.state = .taken → l.readers[i]? = some e →
          l.stage = .opened → e.joined < l.cycle → i ∉ b.takers →
          0 < r.region.permits
            ∧ (l.cycle < e.last.getD e.joined + Admission.epochs →
                (r.step (.wait i)).1 = e.due c l.cycle))
      ∧ r.region.readDone = UInt64.ofNat b.confirmed.length
      ∧ (r.master.live ≤ Semaphore.maxCount → b.confirmed.length ≤ b.released) := by
  have hr := h.scheduled.consistent hc
  rcases h.balanced hc with ⟨-, owed, hb⟩
  refine ⟨hr.permit_answer, fun hopened => ⟨hb.conserved hopened, hb.released_eq hopened⟩,
    hr.permits_of_closed, hb.takers_nodup, ?_, ?_, hb.readDone_eq, hb.confirmed_le⟩
  · intro i hi
    have hseat := List.getElem?_eq_getElem (hb.takers_lt i hi)
    have he := List.getElem?_eq_getElem (hr.length_eq ▸ hb.takers_lt i hi)
    exact ⟨_, he, ((hb.entry i _ _ hseat he).of_taker hi).1⟩
  · intro hlive i s e hseat htaken he hopened hjoined hfirst
    have howed := (hb.entry i s e hseat he).owed_of_present htaken hjoined hfirst
    have hpermits := hb.permits_pos hopened hlive howed
    refine ⟨hpermits, fun hnear => ?_⟩
    rw [Room.step, onSeat_of_taken hseat htaken]
    exact hb.wait_eq_due hr hseat he hopened hjoined hfirst hpermits hnear

/-- Two readers join, and the fast one waits twice in the first cycle: the permit of the other is
still there. -/
theorem Audited.permits_conserved_fastReader :
    ∃ r l b, Audited (fun i => [UInt8.ofNat i]) 4 r l b ∧ (∀ i, [UInt8.ofNat i].length ≤ 4)
      ∧ l.stage = .opened ∧ b = ⟨2, [0], [0]⟩ ∧ r.region.permits = 1 ∧ r.region.readDone = 1
      ∧ (r.step (.wait 1)).1 = .content [1] := by
  have hc : ∀ i, [UInt8.ofNat i].length ≤ 4 := fun _ => Nat.le_of_ble_eq_true rfl
  have hroom : 1 < Admission.epochs := by decide
  have hroom' : 2 < Admission.epochs := by decide
  have hlive : 2 ≤ Semaphore.maxCount := by decide
  have hstart : Audited (fun i => [UInt8.ofNat i]) 4 (Room.fresh 4) .fresh .empty := .start _
  have hopened := ((((hstart.step .subscribe hroom).step .subscribe hroom').step
    .forbid (.inl rfl)).step (.write [1]) ⟨rfl, rfl⟩).step .permit rfl
  have h := ((hopened.step (.wait 0) trivial).step (.done 0) trivial).step (.wait 0) trivial
  obtain ⟨-, hconserved, -, -, -, hanswer, hdone, -⟩ := h.permits_conserved hc
  have hone := hanswer hlive 1 _ _ rfl rfl rfl rfl (by decide) (by decide)
  exact ⟨_, _, _, h, hc, rfl, rfl, Nat.succ.inj (hconserved rfl).1, hdone, hone.2 (by decide)⟩

/-- Beyond their bounds permits are not conserved.  After as many visits as there are epochs a reader
that took its permit of the open cycle takes another one, and the reader it was for goes without.  Of
the permits of more readers than the semaphore counts only as many as it counts are posted.  A reader
that never read sleeps when the epochs have come round to the one at which it joined. -/
theorem Audited.permits_overrun :
    (let reading := [.subscribe, .subscribe] ++ cycles 1 ++ [.wait 0]
      let r := (fresh 4).run (reading ++ visits 2 Admission.epochs)
      r.region.permits = 1
        ∧ (r.step (.wait 0)).2.region.permits = 0
        ∧ ((r.step (.wait 0)).2.step (.wait 1)).1 = .blocked)
      ∧ (let r := (fresh 4).run
          (List.replicate (Semaphore.maxCount + 1) .subscribe ++ [.forbid, .write []])
        r.master.live = Semaphore.maxCount + 1
          ∧ (r.step .permit).1 = .failed (.semaphore "sem_post" r.region.wait.name)
          ∧ (r.step .permit).2.region.permits = Semaphore.maxCount)
      ∧ (let r := (fresh 4).run ([.subscribe] ++ cycles Admission.epochs)
        r.region.permits = 1 ∧ (r.step (.wait 0)).1 = .blocked) := by
  refine ⟨?_, ?_, ?_⟩
  · intro reading r
    let fast : Seat := ⟨⟨1, true, some ⟨1, 1⟩, [], .idle⟩, false, .taken, none⟩
    let slow : Seat := ⟨⟨0, false, none, [], .idle⟩, false, .taken, none⟩
    have hfast : ((fresh 4).run reading).seats[0]? = some fast := rfl
    have hslow : ((fresh 4).run reading).seats[1]? = some slow := rfl
    have hholds : Holds 1 fast.reader := ⟨rfl, rfl, rfl, rfl⟩
    have hquiet : Quiet 1 ((fresh 4).run reading) := ⟨⟨rfl, by decide⟩, rfl, rfl, rfl⟩
    have hr : r = ((fresh 4).run reading).run (visits 2 Admission.epochs) :=
      run_append _ reading (visits 2 Admission.epochs)
    have hopen : ((fresh 4).run reading).region.isOpen = true := by decide
    have hone : ((fresh 4).run reading).region.permits = 1 := rfl
    rcases hquiet.wait_of_visits hopen hfast rfl hholds (by decide) hslow rfl rfl (by decide) rfl with
      ⟨hpermits, hstolen, hblocked⟩
    have htwo : ((fresh 4).run reading).seats.length = 2 := rfl
    rw [htwo] at hpermits hstolen hblocked
    rw [hr]
    exact ⟨hpermits.trans hone, hstolen, hblocked⟩
  · have hcounts : (fresh 4).region.admission.Counts 0 0 := ⟨rfl, by decide⟩
    exact permit_of_crowd hcounts rfl rfl (by decide) (by decide)
  · intro r
    let slow : Seat := ⟨⟨0, false, none, [], .idle⟩, false, .taken, none⟩
    have hseat : ((fresh 4).run ([.subscribe] ++ cycles 1)).seats[0]? = some slow := rfl
    have hquiet : Quiet 1 ((fresh 4).run ([.subscribe] ++ cycles 1)) :=
      ⟨⟨rfl, by decide⟩, rfl, rfl, rfl⟩
    have hround : Admission.epochs = 1 + 4294967295 := rfl
    have hr : r = ((fresh 4).run ([.subscribe] ++ cycles 1)).run (cycles 4294967295) := by
      rw [← run_append, List.append_assoc, ← cycles_add, ← hround]
    have hone : min ((fresh 4).run ([.subscribe] ++ cycles 1)).master.live Semaphore.maxCount = 1 :=
      rfl
    rcases hquiet.wait_of_turn hseat rfl rfl (n := 4294967295) (by decide) (by decide) with
      ⟨hpermits, hblocked⟩
    rw [hr]
    exact ⟨hpermits.trans hone, hblocked⟩

end Room
end Telemetry
