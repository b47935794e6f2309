import Telemetry.Collector.Relay
import Telemetry.Proofs.Broadcast.Headcount
import Telemetry.Proofs.Broadcast.Lockstep

/-!
# Serving — what a client was sent

`Relay.Served` is a relay with the log of its room after any steps: the master goes through its
cycles in order, clients connect, and each client is served in steps of its own, which may come
between any two others.

A client was sent exactly what its reader confirmed (`Client.Follows`), and this is a contiguous
block of the lines that were broadcast since the reader joined (`Attendance.Block`).
-/

namespace Telemetry
namespace Room

/-! ## Seats -/

/-- A reader that leaves does not touch the other seats. -/
theorem leave_seats (r : Room) {i j : Nat} (hij : i ≠ j) :
    (r.step (.leave i)).2.seats[j]? = r.seats[j]? := by
  apply onSeat_cases (P := fun answer => answer.2.seats[j]? = r.seats[j]?)
  · rfl
  · exact fun s _ _ => List.getElem?_set_ne hij

theorem reseat_taken {r : Room} {i : Nat} {s : Seat} (hseat : r.seats[i]? = some s)
    (htaken : s.state = .taken) (reader : Reader) (fault : Option BroadcastError)
    (region : Region) :
    ∃ s', (r.reseat i s reader fault region).seats[i]? = some s' ∧ s'.state = .taken :=
  ⟨{ s with reader := reader, fault := fault },
    List.getElem?_set_self (List.getElem?_eq_some_iff.1 hseat).1, htaken⟩

theorem exit_of_taken {r : Room} {i : Nat} {s : Seat} (hseat : r.seats[i]? = some s)
    (htaken : s.state = .taken) :
    ∃ state, (r.step (.exit i)).2 = (r.depart i s state).2 := by
  rw [Room.step, onSeat_of_taken hseat htaken]
  exact ⟨_, rfl⟩

/-! ## Blocks of lines -/

namespace Attendance

def contents (reads : List (Nat × List UInt8)) : List UInt8 :=
  reads.reverse.flatMap (·.2)

theorem contents_cons (k : Nat) (bytes : List UInt8) (reads : List (Nat × List UInt8)) :
    contents ((k, bytes) :: reads) = contents reads ++ bytes := by
  simp [contents]

/-- What was read since `joined` are the members of `lines` from `first` on. -/
structure Block (lines : List (List UInt8)) (joined first : Nat) (reads : List (Nat × List UInt8)) :
    Prop where
  joined_le : joined ≤ first
  le_length : first + reads.length ≤ lines.length
  contents_eq : contents reads = ((lines.drop first).take reads.length).flatten

variable {lines : List (List UInt8)} {joined first : Nat} {reads : List (Nat × List UInt8)}

theorem Block.nil (hjoined : joined ≤ lines.length) : Block lines joined joined [] :=
  ⟨Nat.le_refl _, hjoined, rfl⟩

theorem Block.cons (h : Block lines joined first reads) (k : Nat) {bytes : List UInt8}
    (hline : lines[first + reads.length]? = some bytes) :
    Block lines joined first ((k, bytes) :: reads) where
  joined_le := h.joined_le
  le_length := (List.getElem?_eq_some_iff.1 hline).1
  contents_eq := by
    have hnext : (lines.drop first)[reads.length]? = some bytes := by
      rw [List.getElem?_drop]
      exact hline
    calc
      contents ((k, bytes) :: reads) = contents reads ++ bytes := contents_cons k bytes reads
      _ = ((lines.drop first).take reads.length).flatten ++ bytes := by rw [h.contents_eq]
      _ = ((lines.drop first).take (reads.length + 1)).flatten := by
        simp [List.take_add_one, hnext]

end Attendance
end Room

/-! ## Clients -/

open Room (Attendance Log)

/-- A client was sent what its reader read, less what is not confirmed or not yet written. -/
inductive Client.Follows (e : Attendance) : Client → Prop where
  | waiting (seat : Nat) (hreading : e.reading = none) :
      Follows e ⟨seat, .waiting, Attendance.contents e.reads⟩
  | copied (seat k : Nat) (bytes : List UInt8) (reads : List (Nat × List UInt8))
      (hreads : e.reads = (k, bytes) :: reads) (hreading : e.reading = some k) :
      Follows e ⟨seat, .copied bytes, Attendance.contents reads⟩
  | writing (seat k : Nat) (bytes : List UInt8) (reads : List (Nat × List UInt8))
      (hreads : e.reads = (k, bytes) :: reads) (hreading : e.reading = none) :
      Follows e ⟨seat, .writing bytes, Attendance.contents reads⟩
  /-- The last write was refused after some of its bytes. -/
  | disconnected (seat k : Nat) (bytes : List UInt8) (reads : List (Nat × List UInt8)) (n : Nat)
      (hreads : e.reads = (k, bytes) :: reads) :
      Follows e ⟨seat, .disconnected, Attendance.contents reads ++ bytes.take n⟩
  | lagged (seat : Nat) (last epoch : UInt32) :
      Follows e ⟨seat, .failed (.lagged last epoch), Attendance.contents e.reads⟩
  /-- The copy that was torn was not written. -/
  | torn (seat k : Nat) (bytes : List UInt8) (reads : List (Nat × List UInt8))
      (sequence : UInt64) (epoch : UInt32) (sequenceNow : UInt64) (epochNow : UInt32)
      (hreads : e.reads = (k, bytes) :: reads) :
      Follows e ⟨seat, .failed (.tornRead sequence epoch sequenceNow epochNow),
        Attendance.contents reads⟩

def ServeStage.isOver : ServeStage → Bool
  | .waiting | .copied _ | .writing _ => false
  | .disconnected | .failed _ => true

/-- A client has a reader on its seat, and what it was sent is what the reader read. -/
def Client.Attended (c : Client) (r : Room) (l : Log) : Prop :=
  ∃ s e, r.seats[c.seat]? = some s ∧ l.readers[c.seat]? = some e
    ∧ (c.stage.isOver = false → s.state = .taken) ∧ c.Follows e

/-- Only its own reader matters to a client. -/
theorem Client.Attended.congr {c : Client} {r r' : Room} {l l' : Log} (h : c.Attended r l)
    (hseat : r'.seats[c.seat]? = r.seats[c.seat]?)
    (hreader : l'.readers[c.seat]? = l.readers[c.seat]?) : c.Attended r' l' := by
  rw [Client.Attended, hseat, hreader]
  exact h

namespace Relay

/-! ## Runs -/

def note (r : Relay) (l : Log) : Step → Log
  | .forbid => l.note .forbid (r.room.step .forbid).1
  | .write content => l.note (.write content) (r.room.step (.write content)).1
  | .permit => l.note .permit (r.room.step .permit).1
  | .connect => l.note .spawn (r.room.step .spawn).1
  | .serve i _ =>
      match r.clients[i]? with
      | none => l
      | some c =>
          match c.stage with
          | .waiting => l.note (.wait c.seat) (r.room.step (.wait c.seat)).1
          | .copied _ => l.note (.done c.seat) (r.room.step (.done c.seat)).1
          | .writing _ | .disconnected | .failed _ => l

/-- Serving does not change how far the broadcast is. -/
theorem note_serve (r : Relay) (l : Log) (i : Nat) (outcome : WriteOutcome) :
    (r.note l (.serve i outcome)).cycle = l.cycle
      ∧ (r.note l (.serve i outcome)).stage = l.stage := by
  rw [note]
  cases r.clients[i]? with
  | none => exact ⟨rfl, rfl⟩
  | some c =>
      dsimp only
      cases c.stage with
      | waiting =>
          dsimp only
          cases (r.room.step (.wait c.seat)).1 <;> exact ⟨rfl, rfl⟩
      | copied bytes =>
          dsimp only
          cases (r.room.step (.done c.seat)).1 <;> exact ⟨rfl, rfl⟩
      | writing bytes => exact ⟨rfl, rfl⟩
      | disconnected => exact ⟨rfl, rfl⟩
      | failed error => exact ⟨rfl, rfl⟩

/-- The master goes through its cycles in order; clients are served at any time. -/
def Allows (content : Nat → List UInt8) (l : Log) : Step → Prop
  | .forbid => l.Allows content .forbid
  | .write bytes => l.Allows content (.write bytes)
  | .permit => l.Allows content .permit
  | .connect => l.Allows content .spawn
  | .serve _ _ => True

/-- A reader joins and leaves at once: no process could be had for its client. -/
def turnAway (r : Relay) : Relay :=
  { r with room := ((r.room.step .subscribe).2.step (.leave r.room.seats.length)).2 }

inductive Served (content : Nat → List UInt8) (capacity : Nat) : Relay → Log → Prop where
  | start (name : String) : Served content capacity (fresh capacity name) .fresh
  | step {r : Relay} {l : Log} (h : Served content capacity r l) (s : Step)
      (hs : Allows content l s) : Served content capacity (r.step s) (r.note l s)
  | turnAway {r : Relay} {l : Log} (h : Served content capacity r l)
      (hs : l.Allows content .subscribe) :
      Served content capacity r.turnAway (l.note .subscribe (r.room.step .subscribe).1)

variable {content : Nat → List UInt8} {capacity : Nat} {r : Relay} {l : Log}

/-- What a client's reader does at the end of a step stays on the schedule. -/
theorem scheduled_after {room : Room} (h : room.Scheduled content capacity l) (r : Relay) (i : Nat)
    (c : Client) (ended : Bool) : (r.after i c room ended).room.Scheduled content capacity l := by
  cases ended with
  | false => exact h
  | true => exact h.step (.exit c.seat) trivial

theorem scheduled_serve (h : r.room.Scheduled content capacity l) (i : Nat)
    (outcome : WriteOutcome) :
    (r.serve i outcome).room.Scheduled content capacity (r.note l (.serve i outcome)) := by
  rw [serve, note]
  cases r.clients[i]? with
  | none => exact h
  | some c =>
      dsimp only
      cases c.stage with
      | waiting =>
          have hwait := h.step (.wait c.seat) trivial
          dsimp only
          generalize r.room.step (.wait c.seat) = answer at hwait ⊢
          rcases answer with ⟨reply, room⟩
          cases reply with
          | content bytes => exact scheduled_after hwait r i _ false
          | failed error => exact scheduled_after hwait r i _ true
          | _ => exact scheduled_after hwait r i _ false
      | copied bytes =>
          have hdone := h.step (.done c.seat) trivial
          dsimp only
          generalize r.room.step (.done c.seat) = answer at hdone ⊢
          rcases answer with ⟨reply, room⟩
          cases reply with
          | failed error => exact scheduled_after hdone r i _ true
          | _ => exact scheduled_after hdone r i _ false
      | writing bytes =>
          cases outcome with
          | taken => exact scheduled_after h r i _ false
          | refused n => exact scheduled_after h r i _ true
      | disconnected => exact h
      | failed error => exact h

theorem Served.scheduled (h : Served content capacity r l) :
    r.room.Scheduled content capacity l := by
  induction h with
  | start name => exact .start name
  | step h s hs ih =>
      cases s with
      | forbid => exact ih.step .forbid hs
      | write bytes => exact ih.step (.write bytes) hs
      | permit => exact ih.step .permit hs
      | connect => exact ih.step .spawn hs
      | serve i outcome => exact scheduled_serve ih i outcome
  | turnAway h hs ih => exact (ih.step .subscribe hs).step (.leave _) trivial

/-! ## The invariant -/

structure Attended (r : Relay) (l : Log) : Prop where
  seat_ne : ∀ (i j : Nat) (c d : Client), r.clients[i]? = some c → r.clients[j]? = some d → i ≠ j →
    c.seat ≠ d.seat
  client : ∀ (i : Nat) (c : Client), r.clients[i]? = some c → c.Attended r.room l

namespace Attended

theorem start (capacity : Nat) (name : String) : Attended (fresh capacity name) .fresh :=
  ⟨nofun, nofun⟩

theorem seat_lt (h : Attended r l) {i : Nat} {c : Client} (hclient : r.clients[i]? = some c) :
    c.seat < r.room.seats.length := by
  rcases h.client i c hclient with ⟨s, e, hseat, -⟩
  exact (List.getElem?_eq_some_iff.1 hseat).1

/-- The room may change where no client has its seat. -/
theorem congr (h : Attended r l) {room : Room} {l' : Log}
    (hseats : ∀ i < r.room.seats.length, room.seats[i]? = r.room.seats[i]?)
    (hreaders : ∀ i < r.room.seats.length, l'.readers[i]? = l.readers[i]?) :
    Attended { r with room := room } l' where
  seat_ne := h.seat_ne
  client i c hclient :=
    (h.client i c hclient).congr (hseats c.seat (h.seat_lt hclient))
      (hreaders c.seat (h.seat_lt hclient))

/-- A step of one client leaves the others alone. -/
theorem update (h : Attended r l) {i : Nat} {c : Client} (hclient : r.clients[i]? = some c)
    (c' : Client) (hsame : c'.seat = c.seat) {room : Room} {l' : Log}
    (hseats : ∀ j, c.seat ≠ j → room.seats[j]? = r.room.seats[j]?)
    (hreaders : ∀ j, c.seat ≠ j → l'.readers[j]? = l.readers[j]?)
    (hself : c'.Attended room l') : Attended ⟨room, r.clients.set i c'⟩ l' := by
  have hi := (List.getElem?_eq_some_iff.1 hclient).1
  have hget : ∀ (j : Nat) (d : Client), (r.clients.set i c')[j]? = some d →
      i = j ∧ d = c' ∨ i ≠ j ∧ r.clients[j]? = some d := by
    intro j d hd
    by_cases hij : i = j
    · subst hij
      rw [List.getElem?_set_self hi] at hd
      exact .inl ⟨rfl, (Option.some.inj hd).symm⟩
    · rw [List.getElem?_set_ne hij] at hd
      exact .inr ⟨hij, hd⟩
  constructor
  · intro j k d d' hd hd' hjk
    rcases hget j d hd with ⟨rfl, rfl⟩ | ⟨hij, hold⟩
    · rcases hget k d' hd' with ⟨rfl, -⟩ | ⟨hik, hold'⟩
      · exact absurd rfl hjk
      · rw [hsame]
        exact h.seat_ne i k c d' hclient hold' hjk
    · rcases hget k d' hd' with ⟨rfl, rfl⟩ | ⟨hik, hold'⟩
      · rw [hsame]
        exact h.seat_ne j i d c hold hclient hjk
      · exact h.seat_ne j k d d' hold hold' hjk
  · intro j d hd
    rcases hget j d hd with ⟨rfl, rfl⟩ | ⟨hij, hold⟩
    · exact hself
    · have hne : c.seat ≠ d.seat := h.seat_ne i j c d hclient hold hij
      exact (h.client j d hold).congr (hseats d.seat hne) (hreaders d.seat hne)

/-- A client connects with a reader that has a new seat. -/
theorem connect (h : Attended r l) (hlength : l.readers.length = r.room.seats.length) :
    Attended (r.connect true) (l.note .spawn (r.room.step .spawn).1) := by
  constructor
  · intro i j c d hc hd hij
    rcases Room.of_getElem?_concat hc with hold | ⟨rfl, rfl⟩
    · rcases Room.of_getElem?_concat hd with hold' | ⟨rfl, rfl⟩
      · exact h.seat_ne i j c d hold hold' hij
      · exact Nat.ne_of_lt (h.seat_lt hold)
    · rcases Room.of_getElem?_concat hd with hold' | ⟨rfl, -⟩
      · exact Ne.symm (Nat.ne_of_lt (h.seat_lt hold'))
      · exact absurd rfl hij
  · intro i c hc
    rcases Room.of_getElem?_concat hc with hold | ⟨rfl, rfl⟩
    · apply (h.client i c hold).congr
      · exact List.getElem?_append_left (h.seat_lt hold)
      · exact List.getElem?_append_left (hlength ▸ h.seat_lt hold)
    · refine ⟨_, ⟨l.cycle, [], none⟩, List.getElem?_concat_length, ?_, fun _ => rfl,
        .waiting r.room.seats.length rfl⟩
      exact hlength ▸ List.getElem?_concat_length

theorem turnAway (h : Attended r l) (hlength : l.readers.length = r.room.seats.length) :
    Attended r.turnAway (l.note .subscribe (r.room.step .subscribe).1) := by
  apply h.congr
  · intro i hi
    calc
      _ = (r.room.step .subscribe).2.seats[i]? := Room.leave_seats _ (Ne.symm (Nat.ne_of_lt hi))
      _ = r.room.seats[i]? := List.getElem?_append_left hi
  · intro i hi
    exact List.getElem?_append_left (hlength ▸ hi)

/-- A client whose reader was called, and keeps its seat. -/
theorem called (h : Attended r l) {i : Nat} {c : Client} (hclient : r.clients[i]? = some c)
    {s : Seat} (hseat : r.room.seats[c.seat]? = some s) (htaken : s.state = .taken)
    {e : Attendance} (he : l.readers[c.seat]? = some e) (reader : Reader)
    (fault : Option BroadcastError) (region : Region) (f : Attendance → Attendance) (c' : Client)
    (hsame : c'.seat = c.seat) (hfollows : c'.Follows (f e)) :
    Attended (r.after i c' (r.room.reseat c.seat s reader fault region) false)
      { l with readers := l.readers.modify c.seat f } := by
  have hi := (List.getElem?_eq_some_iff.1 hseat).1
  apply h.update hclient c' hsame
  · exact fun j hj => List.getElem?_set_ne hj
  · exact fun j hj => List.getElem?_modify_ne _ _ hj
  · rw [Client.Attended, hsame, List.getElem?_modify_eq, he]
    exact ⟨{ s with reader := reader, fault := fault }, f e, List.getElem?_set_self hi, rfl,
      fun _ => htaken, hfollows⟩

/-- A call that the log does not note. -/
theorem called_same (h : Attended r l) {i : Nat} {c : Client} (hclient : r.clients[i]? = some c)
    {s : Seat} (hseat : r.room.seats[c.seat]? = some s) (htaken : s.state = .taken)
    {e : Attendance} (he : l.readers[c.seat]? = some e) (reader : Reader)
    (fault : Option BroadcastError) (region : Region) (c' : Client) (hsame : c'.seat = c.seat)
    (hfollows : c'.Follows e) :
    Attended (r.after i c' (r.room.reseat c.seat s reader fault region) false) l := by
  have hcalled := h.called hclient hseat htaken he reader fault region id c' hsame hfollows
  rw [List.modify_id] at hcalled
  exact hcalled

/-- At the end of the serving the reader also leaves its seat. -/
theorem ended {i : Nat} {c c' : Client} {room : Room} (h : Attended (r.after i c' room false) l)
    (hclient : r.clients[i]? = some c) (hover : c'.stage.isOver = true)
    (hseat : ∃ s, room.seats[c'.seat]? = some s ∧ s.state = .taken) :
    Attended (r.after i c' room true) l := by
  rcases hseat with ⟨s, hseat, htaken⟩
  rcases Room.exit_of_taken hseat htaken with ⟨state, hexit⟩
  have hi := (List.getElem?_eq_some_iff.1 hclient).1
  have hj := (List.getElem?_eq_some_iff.1 hseat).1
  have hclient' : (r.after i c' room false).clients[i]? = some c' := List.getElem?_set_self hi
  rcases h.client i c' hclient' with ⟨-, e, -, he, -, hfollows⟩
  have hleft : Attended ⟨(room.depart c'.seat s state).2, (r.clients.set i c').set i c'⟩ l := by
    apply h.update hclient' c' rfl
    · exact fun j hj => List.getElem?_set_ne hj
    · exact fun _ _ => rfl
    · refine ⟨_, e, List.getElem?_set_self hj, he, fun hnot => ?_, hfollows⟩
      rw [hover] at hnot
      cases hnot
  rw [List.set_set] at hleft
  rw [after, if_pos rfl, hexit]
  exact hleft

theorem serve (h : Attended r l) (hr : r.room.Consistent content capacity l) (i : Nat)
    (outcome : WriteOutcome) :
    Attended (r.serve i outcome) (r.note l (.serve i outcome)) := by
  rw [Relay.serve, note]
  cases hclient : r.clients[i]? with
  | none => exact h
  | some c =>
      rcases h.client i c hclient with ⟨s, e, hseat, he, htaken, hfollows⟩
      cases hfollows with
      | waiting seat hreading =>
          have htaken := htaken rfl
          dsimp only
          rw [Room.step, Room.onSeat_of_taken hseat htaken]
          rcases r.room.wait_answer seat s with
            ⟨reader, fault, left, hwait | ⟨last, epoch, hwait⟩ | ⟨bytes, hwait⟩⟩
          · rw [hwait]
            exact h.called_same hclient hseat htaken he reader fault _ _ rfl
              (.waiting seat hreading)
          · rw [hwait]
            exact (h.called_same hclient hseat htaken he reader fault _
              ⟨seat, .failed (.lagged last epoch), Attendance.contents e.reads⟩ rfl
              (.lagged seat last epoch)).ended hclient rfl
              (Room.reseat_taken hseat htaken reader fault _)
          · rw [hwait]
            exact h.called hclient hseat htaken he reader fault _ _ _ rfl
              (.copied seat l.cycle bytes e.reads rfl rfl)
      | copied seat k bytes reads hreads hreading =>
          have htaken := htaken rfl
          have hmark := (hr.follows seat s e hseat he).reading_eq
          rw [hreading, Option.map_some] at hmark
          dsimp only
          rw [Room.step, Room.onSeat_of_taken hseat htaken]
          rcases r.room.finish_answer seat s with
            ⟨reader, fault, readDone, hdone | ⟨sequence, epoch, sequenceNow, epochNow, hdone⟩
              | ⟨hnone, -⟩⟩
          · rw [hdone]
            exact h.called hclient hseat htaken he reader fault _ _ _ rfl
              (.writing seat k bytes reads hreads rfl)
          · rw [hdone]
            exact (h.called hclient hseat htaken he reader fault _
              (fun e => { e with reading := none })
              ⟨seat, .failed (.tornRead sequence epoch sequenceNow epochNow),
                Attendance.contents reads⟩ rfl
              (.torn seat k bytes reads sequence epoch sequenceNow epochNow hreads)).ended hclient
              rfl (Room.reseat_taken hseat htaken reader fault _)
          · rw [hnone] at hmark
            cases hmark
      | writing seat k bytes reads hreads hreading =>
          cases outcome with
          | taken =>
              have hsent : Attendance.contents reads ++ bytes = Attendance.contents e.reads := by
                rw [hreads, Attendance.contents_cons]
              have hwaiting : Client.Follows e
                  ⟨seat, .waiting, Attendance.contents reads ++ bytes⟩ :=
                hsent ▸ .waiting seat hreading
              exact h.update hclient ⟨seat, .waiting, Attendance.contents reads ++ bytes⟩ rfl
                (fun _ _ => rfl) (fun _ _ => rfl) ⟨s, e, hseat, he, htaken, hwaiting⟩
          | refused n =>
              have hrefused : Attended
                  (r.after i ⟨seat, .disconnected, Attendance.contents reads ++ bytes.take n⟩
                    r.room false) l :=
                h.update hclient ⟨seat, .disconnected, Attendance.contents reads ++ bytes.take n⟩
                  rfl (fun _ _ => rfl) (fun _ _ => rfl)
                  ⟨s, e, hseat, he, fun _ => htaken rfl,
                    .disconnected seat k bytes reads n hreads⟩
              exact hrefused.ended hclient rfl ⟨s, hseat, htaken rfl⟩
      | disconnected seat k bytes reads n hreads => exact h
      | lagged seat last epoch => exact h
      | torn seat k bytes reads sequence epoch sequenceNow epochNow hreads => exact h

end Attended

end Relay

/-! ## What was sent -/

namespace Client

variable {c : Client} {lines : List (List UInt8)} {e : Attendance}

/-- A serving that failed ended because the reader fell behind. -/
theorem Follows.isLagging (h : c.Follows e)
    {error : BroadcastError} (hfailed : c.stage = .failed error) : error.isLagging = true := by
  cases h with
  | lagged seat last epoch =>
      cases hfailed
      rfl
  | torn seat k bytes reads sequence epoch sequenceNow epochNow hreads =>
      cases hfailed
      rfl
  | _ => cases hfailed

end Client

end Telemetry
