import Telemetry.Broadcast.Room
import Telemetry.Proofs.Broadcast.Admission

/-!
# Schedule — the steps of a room in their order

A `Room.Log` keeps what the steps and their answers tell: how many cycles were begun, how far the
current one got, and for each reader when it joined and what it read.  It is not part of the room,
and no step depends on it.

`Room.Scheduled` is the room and the log after any steps in which the master goes through its cycles
in order, each with the content `c i`.  The readers are not restricted, but for their number in one
cycle.
-/

namespace Telemetry
namespace Room

inductive Stage where
  | unbegun
  | forbidden
  | written
  | opened
  deriving DecidableEq, Repr

/-- What the steps tell of one reader. -/
structure Attendance where
  /-- cycles begun when it joined -/
  joined : Nat
  /-- the cycles it read, each with what it was given, the latest first -/
  reads : List (Nat × List UInt8)
  /-- the cycle it read and did not confirm -/
  reading : Option Nat
  deriving DecidableEq, Repr

def Attendance.last (e : Attendance) : Option Nat :=
  e.reads.head?.map (·.1)

structure Log where
  /-- cycles begun -/
  cycle : Nat
  stage : Stage
  /-- readers that joined in the current cycle -/
  joins : Nat
  /-- one entry for each seat -/
  readers : List Attendance
  deriving DecidableEq, Repr

namespace Log

def fresh : Log :=
  ⟨0, .unbegun, 0, []⟩

def note (l : Log) (s : Step) (answer : Reply) : Log :=
  match s, answer with
  | .forbid, _ => { l with cycle := l.cycle + 1, stage := .forbidden, joins := 0 }
  | .write _, _ => { l with stage := .written }
  | .permit, _ => { l with stage := .opened }
  | .subscribe, _ | .spawn, _ =>
      { l with joins := l.joins + 1, readers := l.readers ++ [⟨l.cycle, [], none⟩] }
  | .wait i, .content bytes =>
      { l with
        readers := l.readers.modify i fun e =>
          { e with reads := (l.cycle, bytes) :: e.reads, reading := some l.cycle } }
  | .done i, .done | .done i, .failed _ =>
      { l with readers := l.readers.modify i fun e => { e with reading := none } }
  | _, _ => l

/-- The master goes through its cycles in order, and fewer readers than there are epochs join in one
cycle.  Steps that are made of others are left out. -/
def Allows (c : Nat → List UInt8) (l : Log) : Step → Prop
  | .forbid => l.stage = .unbegun ∨ l.stage = .opened
  | .write content => l.stage = .forbidden ∧ content = c l.cycle
  | .permit => l.stage = .written
  | .subscribe | .spawn => l.joins + 1 < Admission.epochs
  | .broadcast _ | .receive _ => False
  | .wait _ | .done _ | .content _ | .leave _ | .exit _ | .panic _ | .kill _ => True

def permitted (l : Log) : Nat :=
  if l.stage = .opened then l.cycle else l.cycle - 1

end Log

/-- The room and the log after some steps. -/
inductive Scheduled (c : Nat → List UInt8) (capacity : Nat) : Room → Log → Prop where
  | start (name : String) : Scheduled c capacity (fresh capacity name) .fresh
  | step {r : Room} {l : Log} (h : Scheduled c capacity r l) (s : Step) (hs : l.Allows c s) :
      Scheduled c capacity (r.step s).2 (l.note s (r.step s).1)

/-- An entry of a list to which one was added is an old one or the new one. -/
theorem of_getElem?_concat {α : Type} {xs : List α} {x y : α} {i : Nat}
    (h : (xs ++ [x])[i]? = some y) : xs[i]? = some y ∨ i = xs.length ∧ x = y := by
  by_cases hi : i < xs.length
  · rw [List.getElem?_append_left hi] at h
    exact .inl h
  · have hlength : i = xs.length := by
      have hlt := (List.getElem?_eq_some_iff.1 h).1
      rw [List.length_append, List.length_singleton] at hlt
      exact Nat.le_antisymm (Nat.le_of_lt_succ hlt) (Nat.not_lt.1 hi)
    subst hlength
    rw [List.getElem?_concat_length] at h
    exact .inr ⟨rfl, Option.some.inj h⟩

/-! ## Steps made of others -/

/-- A broadcast of content that fits is one whole cycle. -/
theorem step_broadcast (r : Room) {content : List UInt8}
    (hfits : content.length ≤ r.region.capacity) :
    r.step (.broadcast content)
      = (((r.step .forbid).2.step (.write content)).2.step .permit) := by
  have hnot : ¬content.length > r.region.capacity := Nat.not_lt.2 hfits
  have hwrite : (r.master.forbidRead r.status r.region).2.write content
      = .ok { (r.master.forbidRead r.status r.region).2 with
          content := content, content_fits := hfits } :=
    dif_pos hfits
  simp only [step, Master.broadcast, if_neg hnot, hwrite]

theorem onSeat_of_taken {r : Room} {i : Nat} {s : Seat} (hseat : r.seats[i]? = some s)
    (htaken : s.state = .taken) (call : Seat → Reply × Room) : r.onSeat i call = call s := by
  rw [onSeat, hseat]
  exact if_pos htaken

/-- A call on a seat that is not taken does nothing. -/
theorem onSeat_cases {P : Reply × Room → Prop} {r : Room} {i : Nat} {call : Seat → Reply × Room}
    (hnothing : P (.nothing, r))
    (hcall : ∀ s, r.seats[i]? = some s → s.state = .taken → P (call s)) : P (r.onSeat i call) := by
  rw [onSeat]
  cases hseat : r.seats[i]? with
  | none => exact hnothing
  | some s =>
      dsimp only
      split
      · next htaken => exact hcall s hseat htaken
      · exact hnothing

/-- A wait does not take its reader from its seat. -/
theorem wait_seat {r : Room} {i : Nat} {s : Seat} (hseat : r.seats[i]? = some s) :
    ∃ s', (r.wait i s).2.seats[i]? = some s' ∧ s'.state = s.state := by
  obtain ⟨hi, -⟩ := List.getElem?_eq_some_iff.1 hseat
  rw [wait]
  split
  next => exact ⟨_, List.getElem?_set_self hi, rfl⟩
  next => exact ⟨_, List.getElem?_set_self hi, rfl⟩
  next => exact ⟨_, List.getElem?_set_self hi, rfl⟩

/-- To receive is to wait, and to confirm if content came. -/
theorem step_receive (r : Room) (i : Nat) :
    (r.step (.receive i)).2 =
      match r.step (.wait i) with
      | (.content _, r') => (r'.step (.done i)).2
      | (_, r') => r' := by
  cases hseat : r.seats[i]? with
  | none =>
      simp only [step, onSeat, hseat]
  | some s =>
      by_cases htaken : s.state = .taken
      · have hwait : r.step (.wait i) = r.wait i s := onSeat_of_taken hseat htaken _
        have hreceive : r.step (.receive i) = r.receive i s := onSeat_of_taken hseat htaken _
        obtain ⟨s', hseat', hstate⟩ := wait_seat hseat
        rw [hreceive, receive, hwait]
        generalize r.wait i s = answer at hseat' ⊢
        obtain ⟨reply, r'⟩ := answer
        cases reply with
        | content bytes =>
            have hdone : r'.step (.done i) = r'.finish i s' :=
              onSeat_of_taken hseat' (hstate.trans htaken) _
            dsimp only at hseat' ⊢
            rw [hseat', hdone]
            dsimp only
            split
            next r'' hfinish => rw [hfinish]
            next => rfl
        | nothing => rfl
        | joined j => rfl
        | blocked => rfl
        | done => rfl
        | failed e => rfl
      · simp only [step, onSeat, hseat, if_neg htaken]

end Room
end Telemetry
