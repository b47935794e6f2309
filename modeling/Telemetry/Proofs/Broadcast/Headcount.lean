import Mathlib.Data.Finset.Card
import Telemetry.Proofs.Broadcast.Schedule
import Telemetry.Proofs.Broadcast.Waiting

/-!
# Headcount — live readers and taken seats

The master counts a reader in at the cycle after it joined, and out at the cycle after it left or was
killed.  `Room.present` are the readers that still have their seats, `Room.killed` the killed
processes that the master has yet to reap.  A step moves a reader between them and the counters, so
the readers present are always covered by those the master counts (`Room.Covered`), and those for
whom a cycle is opened are at least the readers present when it is begun (`Room.Covered.forbid`).
-/

namespace Telemetry
namespace Room

/-! ## Who is there -/

def present (r : Room) : Finset Nat :=
  (Finset.range r.seats.length).filter fun i => r.seats[i]?.map Seat.state = some .taken

def killed (r : Room) : Finset Nat :=
  r.master.children.toFinset.filter fun i => r.status i = .killed

theorem mem_present {r : Room} {i : Nat} :
    i ∈ r.present ↔ ∃ s, r.seats[i]? = some s ∧ s.state = .taken := by
  rw [present, Finset.mem_filter, Finset.mem_range, Option.map_eq_some_iff]
  constructor
  · exact And.right
  · rintro ⟨s, hseat, htaken⟩
    exact ⟨(List.getElem?_eq_some_iff.1 hseat).1, s, hseat, htaken⟩

theorem mem_killed {r : Room} {i : Nat} :
    i ∈ r.killed ↔ i ∈ r.master.children ∧ r.status i = .killed := by
  rw [killed, Finset.mem_filter, List.mem_toFinset]

variable {r : Room} {l : Log} {i : Nat} {s : Seat}

/-- What a seat that is set again has to keep for `present` to stay. -/
theorem present_reseat (hseat : r.seats[i]? = some s) (htaken : s.state = .taken) (s' : Seat)
    (hkept : s'.state = .taken) (region : Region) :
    { r with region := region, seats := r.seats.set i s' }.present = r.present := by
  rcases List.getElem?_eq_some_iff.1 hseat with ⟨hi, -⟩
  ext j
  rw [mem_present, mem_present]
  by_cases hij : i = j
  · subst hij
    dsimp only
    rw [List.getElem?_set_self hi]
    exact ⟨fun _ => ⟨s, hseat, htaken⟩, fun _ => ⟨s', rfl, hkept⟩⟩
  · dsimp only
    rw [List.getElem?_set_ne hij]

theorem present_vacate (hseat : r.seats[i]? = some s) (s' : Seat) (hleft : s'.state ≠ .taken)
    (region : Region) :
    { r with region := region, seats := r.seats.set i s' }.present = r.present.erase i := by
  rcases List.getElem?_eq_some_iff.1 hseat with ⟨hi, -⟩
  ext j
  rw [Finset.mem_erase, mem_present, mem_present]
  by_cases hij : i = j
  · subst hij
    dsimp only
    rw [List.getElem?_set_self hi]
    constructor
    · rintro ⟨t, ht, htaken⟩
      cases ht
      exact absurd htaken hleft
    · rintro ⟨hne, -⟩
      exact absurd rfl hne
  · dsimp only
    rw [List.getElem?_set_ne hij]
    exact ⟨fun h => ⟨Ne.symm hij, h⟩, And.right⟩

theorem present_join (r : Room) (forked : Bool) :
    (r.join forked).2.present = insert r.seats.length r.present := by
  ext j
  rw [Finset.mem_insert, mem_present, mem_present, join]
  dsimp only
  constructor
  · rintro ⟨t, ht, htaken⟩
    rcases of_getElem?_concat ht with hold | ⟨rfl, -⟩
    · exact .inr ⟨t, hold, htaken⟩
    · exact .inl rfl
  · rintro (rfl | ⟨t, ht, htaken⟩)
    · exact ⟨_, List.getElem?_concat_length, rfl⟩
    · exact ⟨t, (List.getElem?_append_left (List.getElem?_eq_some_iff.1 ht).1).trans ht, htaken⟩

theorem status_of_ne (r : Room) (region : Region) {j : Nat} (hij : i ≠ j) (s' : Seat) :
    { r with region := region, seats := r.seats.set i s' }.status j = r.status j := by
  rw [status, status]
  dsimp only
  rw [List.getElem?_set_ne hij]

theorem status_ne_killed (hseat : r.seats[i]? = some s) (hstate : s.state ≠ .killed) :
    r.status i ≠ .killed := by
  rw [status, hseat]
  dsimp only
  split
  · split
    · exact nofun
    · next hkilled => exact absurd hkilled hstate
    · exact nofun
    · exact nofun
  · exact nofun

/-- A reader that is not killed leaves the killed ones as they are. -/
theorem killed_reseat (hseat : r.seats[i]? = some s) (hstate : s.state ≠ .killed) (s' : Seat)
    (hkept : s'.state ≠ .killed) (region : Region) :
    { r with region := region, seats := r.seats.set i s' }.killed = r.killed := by
  rcases List.getElem?_eq_some_iff.1 hseat with ⟨hi, -⟩
  ext j
  rw [mem_killed, mem_killed]
  by_cases hij : i = j
  · subst hij
    have hbefore := status_ne_killed hseat hstate
    have hafter := status_ne_killed (r := { r with region := region, seats := r.seats.set i s' })
      (List.getElem?_set_self hi) hkept
    exact ⟨fun h => absurd h.2 hafter, fun h => absurd h.2 hbefore⟩
  · rw [status_of_ne r region hij s']

theorem killed_kill (r : Room) (i : Nat) (s' : Seat) :
    { r with seats := r.seats.set i s' }.killed ⊆ insert i r.killed := by
  intro j hj
  rw [Finset.mem_insert]
  by_cases hij : i = j
  · exact .inl hij.symm
  · rw [mem_killed, status_of_ne r r.region hij s'] at hj
    exact .inr (mem_killed.2 hj)

theorem killed_join (hchildren : ∀ p ∈ r.master.children, p < r.seats.length) (forked : Bool) :
    (r.join forked).2.killed = r.killed := by
  have hnew : (r.join forked).2.status r.seats.length ≠ .killed := by
    apply status_ne_killed (s := ⟨(Reader.join r.region).1, forked, .taken, none⟩)
    · exact List.getElem?_concat_length
    · exact nofun
  have hold : ∀ p ∈ r.master.children, (r.join forked).2.status p = r.status p := by
    intro p hp
    rw [status, status, join]
    dsimp only
    rw [List.getElem?_append_left (hchildren p hp)]
  ext j
  rw [mem_killed, mem_killed]
  constructor
  · rintro ⟨hj, hkilled⟩
    cases forked with
    | false => exact ⟨hj, hold j hj ▸ hkilled⟩
    | true =>
        rcases List.mem_append.1 hj with hj | hj
        · exact ⟨hj, hold j hj ▸ hkilled⟩
        · rw [List.mem_singleton.1 hj] at hkilled
          exact absurd hkilled hnew
  · rintro ⟨hj, hkilled⟩
    refine ⟨?_, (hold j hj).trans hkilled⟩
    cases forked with
    | false => exact hj
    | true => exact List.mem_append_left _ hj

/-- Reaping counts the killed processes and keeps none of them. -/
theorem reap_killed (hnodup : r.master.children.Nodup) :
    (r.master.reap r.status).1 = r.killed.card := by
  have hfilter : r.killed = (r.master.children.filter fun p => r.status p == .killed).toFinset := by
    ext j
    rw [mem_killed, List.mem_toFinset, List.mem_filter, beq_iff_eq]
  rw [hfilter, List.toFinset_card_of_nodup (hnodup.filter _)]
  rfl

theorem killed_forbid (r : Room) : (r.step .forbid).2.killed = ∅ := by
  ext j
  rw [mem_killed]
  constructor
  · rintro ⟨hj, hkilled⟩
    have hrunning : r.status j = .running := by
      have hmem := (List.mem_filter.1 hj).2
      exact eq_of_beq hmem
    have hsame : (r.step .forbid).2.status j = r.status j := rfl
    rw [hsame, hrunning] at hkilled
    cases hkilled
  · intro hj
    exact absurd hj (Finset.notMem_empty j)

/-! ## Calls of readers -/

/-- A wait takes permits, and leaves the rest of the room alone but for its reader.  One that fails
tells the reader that it fell behind. -/
theorem wait_answer (r : Room) (i : Nat) (s : Seat) :
    ∃ reader fault left,
      r.wait i s = (.blocked, r.reseat i s reader fault (r.region.withPermits left))
        ∨ (∃ last epoch,
            r.wait i s = (.failed (.lagged last epoch),
              r.reseat i s reader fault (r.region.withPermits left)))
        ∨ ∃ bytes,
            r.wait i s = (.content bytes,
              r.reseat i s reader fault (r.region.withPermits left)) := by
  have hwaited := s.reader.wait_waited r.region
  rw [Room.wait]
  generalize s.reader.wait r.region = answer at hwaited ⊢
  cases hwaited with
  | asleep left => exact ⟨_, _, left, .inl rfl⟩
  | starved => exact ⟨_, _, 0, .inl rfl⟩
  | lagged left hleft error herror =>
      rw [Reader.lag?] at herror
      split at herror
      · cases herror
        exact ⟨_, _, left, .inr (.inl ⟨_, _, rfl⟩)⟩
      · cases herror
  | served left => exact ⟨_, _, left, .inr (.inr ⟨_, rfl⟩)⟩

theorem wait_eq_reseat (r : Room) (i : Nat) (s : Seat) :
    ∃ reader fault left,
      (r.wait i s).2 = r.reseat i s reader fault (r.region.withPermits left) := by
  rcases r.wait_answer i s with ⟨reader, fault, left, h | ⟨last, epoch, h⟩ | ⟨bytes, h⟩⟩
  all_goals exact ⟨reader, fault, left, congrArg Prod.snd h⟩

/-- A reader that confirms its copy is counted, and the rest of the room is left alone.  One that
holds a copy is only told that it is torn. -/
theorem finish_answer (r : Room) (i : Nat) (s : Seat) :
    ∃ reader fault readDone,
      r.finish i s = (.done, r.reseat i s reader fault { r.region with readDone := readDone })
        ∨ (∃ sequence epoch sequenceNow epochNow,
            r.finish i s = (.failed (.tornRead sequence epoch sequenceNow epochNow),
              r.reseat i s reader fault { r.region with readDone := readDone }))
        ∨ s.reader.reading = none
          ∧ r.finish i s = (.failed .notReading,
              r.reseat i s reader fault { r.region with readDone := readDone }) := by
  rw [Room.finish, Reader.finish]
  cases hreading : s.reader.reading with
  | none => exact ⟨_, _, r.region.readDone, .inr (.inr ⟨rfl, rfl⟩)⟩
  | some mark =>
      dsimp only
      by_cases hcurrent : r.region.sequence = mark.sequence ∧ r.region.epoch = mark.epoch
      · rw [if_pos hcurrent]
        exact ⟨_, _, r.region.readDone + 1, .inl rfl⟩
      · rw [if_neg hcurrent]
        exact ⟨_, _, r.region.readDone, .inr (.inl ⟨_, _, _, _, rfl⟩)⟩

theorem finish_eq_reseat (r : Room) (i : Nat) (s : Seat) :
    ∃ reader fault readDone,
      (r.finish i s).2 = r.reseat i s reader fault { r.region with readDone := readDone } := by
  rcases r.finish_answer i s with
    ⟨reader, fault, readDone, h | ⟨sequence, epoch, sequenceNow, epochNow, h⟩ | ⟨-, h⟩⟩
  all_goals exact ⟨reader, fault, readDone, congrArg Prod.snd h⟩

/-! ## Counting -/

/-- The readers present, those that left and those that were killed are counted as live or as
waiting to be admitted. -/
structure Covered (r : Room) (l : Log) : Prop where
  children_lt : ∀ p ∈ r.master.children, p < r.seats.length
  children_nodup : r.master.children.Nodup
  covered : r.present.card + r.region.departed.toNat + r.killed.card ≤ r.master.live + l.joins

namespace Covered

theorem start (capacity : Nat) (name : String) : Covered (fresh capacity name) .fresh where
  children_lt p hp := by cases hp
  children_nodup := .nil
  covered := Nat.le_refl 0

/-- At the beginning of a cycle every reader present is live. -/
theorem forbid (h : Covered r l) (hpending : r.region.admission.pending.toNat = l.joins) :
    Covered (r.step .forbid).2 (l.note .forbid (r.step .forbid).1)
      ∧ r.present.card ≤ (r.step .forbid).2.master.live := by
  have hcovered := h.covered
  have hlive : (r.step .forbid).2.master.live
      = r.master.live + l.joins - (r.region.departed.toNat + r.killed.card) := by
    rw [← hpending, ← reap_killed h.children_nodup]
    rfl
  have hpresent : (r.step .forbid).2.present = r.present := rfl
  have hkilled := r.killed_forbid
  refine ⟨⟨?_, ?_, ?_⟩, ?_⟩
  · intro p hp
    exact h.children_lt p (List.mem_filter.1 hp).1
  · exact h.children_nodup.filter _
  · rw [hpresent, hkilled, hlive]
    change r.present.card + 0 + 0 ≤ r.master.live + l.joins - _ + 0
    omega
  · rw [hlive]
    omega

theorem join (h : Covered r l) (forked : Bool) :
    Covered (r.join forked).2
      { l with joins := l.joins + 1, readers := l.readers ++ [⟨l.cycle, [], none⟩] } := by
  have hcovered := h.covered
  refine ⟨?_, ?_, ?_⟩
  · intro p hp
    have hlength : (r.join forked).2.seats.length = r.seats.length + 1 := by
      simp [Room.join]
    rw [hlength]
    cases forked with
    | false => exact Nat.lt_succ_of_lt (h.children_lt p hp)
    | true =>
        rcases List.mem_append.1 hp with hp | hp
        · exact Nat.lt_succ_of_lt (h.children_lt p hp)
        · rw [List.mem_singleton.1 hp]
          exact Nat.lt_succ_self _
  · cases forked with
    | false => exact h.children_nodup
    | true =>
        apply List.Nodup.append h.children_nodup (List.nodup_singleton _)
        intro p hp hnew
        exact Nat.ne_of_lt (h.children_lt p hp) (List.mem_singleton.1 hnew)
  · have hfresh : r.seats.length ∉ r.present := by
      rw [mem_present, List.getElem?_eq_none (Nat.le_refl _)]
      rintro ⟨s, hs, -⟩
      cases hs
    have hlive : (r.join forked).2.master.live = r.master.live := by cases forked <;> rfl
    rw [present_join, killed_join h.children_lt, Finset.card_insert_of_notMem hfresh, hlive]
    change _ + r.region.departed.toNat + _ ≤ r.master.live + (l.joins + 1)
    omega

/-- A call of a reader that keeps its seat. -/
theorem reseat (h : Covered r l) (hseat : r.seats[i]? = some s) (htaken : s.state = .taken)
    (reader : Reader) (fault : Option BroadcastError) {region : Region}
    (hdeparted : region.departed = r.region.departed) {l' : Log} (hjoins : l'.joins = l.joins) :
    Covered (r.reseat i s reader fault region) l' where
  children_lt p hp := by
    rw [Room.reseat, List.length_set]
    exact h.children_lt p hp
  children_nodup := h.children_nodup
  covered := by
    have halive : s.state ≠ .killed := by rw [htaken]; exact nofun
    rw [Room.reseat, present_reseat hseat htaken { s with reader := reader, fault := fault } htaken,
      killed_reseat hseat halive { s with reader := reader, fault := fault } halive, hdeparted,
      hjoins]
    exact h.covered

theorem depart (h : Covered r l) (hseat : r.seats[i]? = some s) (htaken : s.state = .taken)
    {state : SeatState} (hleft : state ≠ .taken) (halive : state ≠ .killed) :
    Covered (r.depart i s state).2 l where
  children_lt p hp := by
    rw [Room.depart, List.length_set]
    exact h.children_lt p hp
  children_nodup := h.children_nodup
  covered := by
    have hcovered := h.covered
    have hmem : i ∈ r.present := mem_present.2 ⟨s, hseat, htaken⟩
    have hcount := Finset.card_erase_add_one hmem
    have hdeparted : (r.region.departed + 1).toNat ≤ r.region.departed.toNat + 1 := by
      rw [UInt64.toNat_add]
      exact Nat.mod_le _ _
    rw [Room.depart, present_vacate hseat { s with state := state } hleft,
      killed_reseat hseat (by rw [htaken]; exact nofun) { s with state := state } halive,
      Region.depart]
    dsimp only
    omega

theorem kill (h : Covered r l) (hseat : r.seats[i]? = some s) (htaken : s.state = .taken) :
    Covered { r with seats := r.seats.set i { s with state := .killed } } l where
  children_lt p hp := by
    rw [List.length_set]
    exact h.children_lt p hp
  children_nodup := h.children_nodup
  covered := by
    have hcovered := h.covered
    have hmem : i ∈ r.present := mem_present.2 ⟨s, hseat, htaken⟩
    have hcount := Finset.card_erase_add_one hmem
    have hkilled := (Finset.card_le_card (r.killed_kill i { s with state := .killed })).trans
      (Finset.card_insert_le i r.killed)
    rw [present_vacate hseat { s with state := .killed } nofun r.region]
    dsimp only
    omega

/-- A call on a seat, with the note that the log takes of it. -/
theorem onSeat (h : Covered r l) (i : Nat) (call : Seat → Reply × Room) (note : Reply → Log)
    (hnothing : note .nothing = l)
    (hcall : ∀ s, r.seats[i]? = some s → s.state = .taken →
      Covered (call s).2 (note (call s).1)) :
    Covered (r.onSeat i call).2 (note (r.onSeat i call).1) :=
  onSeat_cases (P := fun answer => Covered answer.2 (note answer.1)) (hnothing.symm ▸ h) hcall

theorem joins_note_wait (l : Log) (i : Nat) (answer : Reply) :
    (l.note (.wait i) answer).joins = l.joins := by
  cases answer <;> rfl

theorem joins_note_done (l : Log) (i : Nat) (answer : Reply) :
    (l.note (.done i) answer).joins = l.joins := by
  cases answer <;> rfl

theorem step (h : Covered r l) (hpending : r.region.admission.pending.toNat = l.joins)
    {c : Nat → List UInt8} (s : Step) (hs : l.Allows c s) :
    Covered (r.step s).2 (l.note s (r.step s).1) := by
  cases s with
  | forbid => exact (h.forbid hpending).1
  | write content =>
      rw [Room.step, Region.write]
      by_cases hfits : content.length ≤ r.region.capacity
      · rw [dif_pos hfits]
        exact ⟨h.children_lt, h.children_nodup, h.covered⟩
      · rw [dif_neg hfits]
        exact ⟨h.children_lt, h.children_nodup, h.covered⟩
  | permit => exact ⟨h.children_lt, h.children_nodup, h.covered⟩
  | broadcast content => exact hs.elim
  | subscribe => exact h.join false
  | spawn => exact h.join true
  | wait i =>
      refine h.onSeat i (r.wait i) (l.note (.wait i)) rfl fun s hseat htaken => ?_
      rcases r.wait_eq_reseat i s with ⟨reader, fault, left, hroom⟩
      rw [hroom]
      refine h.reseat hseat htaken reader fault ?_ (joins_note_wait l i _)
      rfl
  | done i =>
      refine h.onSeat i (r.finish i) (l.note (.done i)) rfl fun s hseat htaken => ?_
      rcases r.finish_eq_reseat i s with ⟨reader, fault, readDone, hroom⟩
      rw [hroom]
      refine h.reseat hseat htaken reader fault ?_ (joins_note_done l i _)
      rfl
  | content i =>
      exact h.onSeat i (r.view i) (fun _ => l) rfl fun s hseat htaken =>
        h.reseat hseat htaken s.reader none rfl rfl
  | receive i => exact hs.elim
  | leave i =>
      exact h.onSeat i _ (fun _ => l) rfl fun s hseat htaken =>
        h.depart hseat htaken (by rintro ⟨⟩) (by rintro ⟨⟩)
  | exit i =>
      exact h.onSeat i _ (fun _ => l) rfl fun s hseat htaken =>
        h.depart hseat htaken (by rintro ⟨⟩) (by rintro ⟨⟩)
  | panic i =>
      exact h.onSeat i _ (fun _ => l) rfl fun s hseat htaken =>
        h.depart hseat htaken (by rintro ⟨⟩) (by rintro ⟨⟩)
  | kill i => exact h.onSeat i _ (fun _ => l) rfl fun s hseat htaken => h.kill hseat htaken

end Covered
end Room
end Telemetry
