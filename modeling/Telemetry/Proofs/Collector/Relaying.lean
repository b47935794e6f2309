import Telemetry.Collector.Collector
import Telemetry.Proofs.Collector.Serving

/-!
# Relaying — what a collector's clients are sent

`Collector.Relaying` is a collector after any run: datagrams are handled, clients connect, the
configuration is read again, and the lines are broadcast in steps, between any two of which clients
may be served.  The functions of the collector are such runs, with nothing served in between.

Every client is sent a contiguous block of the lines that fit the region, from one on that was
broadcast after it connected (`Collector.Relaying.contiguous`).
-/

namespace Telemetry

open Room (Attendance Log Stage)

/-- The steps in which a line is broadcast; there are none for one that is too long. -/
def Relay.cycle (r : Relay) (line : List UInt8) : List Relay.Step :=
  if line.length ≤ r.room.region.capacity then [.forbid, .write line, .permit] else []

theorem Relay.run_cycle (r : Relay) (line : List UInt8) :
    r.run (r.cycle line) = r.broadcast line := by
  rw [cycle, broadcast]
  by_cases hfits : line.length ≤ r.room.region.capacity
  · rw [if_pos hfits, Room.step_broadcast r.room hfits]
    rfl
  · have hlong : line.length > r.room.region.capacity := Nat.lt_of_not_le hfits
    rw [if_neg hfits, Room.step, Master.broadcast, if_pos hlong]
    rfl

namespace Collector

/-- The lines that fit the region, as they are broadcast. -/
def fitting (capacity : Nat) (lines : List String) : List (List UInt8) :=
  (lines.map fun line => line.toUTF8.toList).filter fun bytes => bytes.length ≤ capacity

/-- The collector after some steps, with the lines it had of its datagrams, the log of its room, and
what is left of the broadcast of the last line.  Each client that comes joins as a reader, if only to
leave at once, so fewer come between two lines than there are epochs. -/
inductive Relaying (capacity : Nat) :
    Collector → (lines : List String) → Log → (todo : List Relay.Step) → Prop where
  | start (c : Collector) (name : String) (hrelay : c.relay = Relay.fresh capacity name) :
      Relaying capacity c [] .fresh []
  /-- A datagram is handled; if it has a line, that is the next one to be broadcast. -/
  | datagram {c : Collector} {lines : List String} {l : Log} (h : Relaying capacity c lines l [])
      {sender : SocketAddress} {bytes : List UInt8} {line : Option String} {demux : Demux}
      (hline : c.demux.handle c.handle.current.value.sources sender bytes = (line, demux)) :
      Relaying capacity { c with demux := demux } (lines ++ line.toList) l
        (line.elim [] fun line => c.relay.cycle line.toUTF8.toList)
  /-- The broadcast goes on. -/
  | master {c : Collector} {lines : List String} {l : Log} {s : Relay.Step}
      {todo : List Relay.Step} (h : Relaying capacity c lines l (s :: todo)) :
      Relaying capacity { c with relay := c.relay.step s } lines (c.relay.note l s) todo
  /-- A client is served, at any time. -/
  | serve {c : Collector} {lines : List String} {l : Log} {todo : List Relay.Step}
      (h : Relaying capacity c lines l todo) (i : Nat) (outcome : WriteOutcome) :
      Relaying capacity { c with relay := c.relay.serve i outcome } lines
        (c.relay.note l (.serve i outcome)) todo
  | connect {c : Collector} {lines : List String} {l : Log} (h : Relaying capacity c lines l [])
      (hroom : l.joins + 1 < Admission.epochs) :
      Relaying capacity { c with relay := c.relay.connect true } lines (c.relay.note l .connect) []
  /-- A client comes for which there is no process. -/
  | turnAway {c : Collector} {lines : List String} {l : Log} (h : Relaying capacity c lines l [])
      (hroom : l.joins + 1 < Admission.epochs) :
      Relaying capacity { c with relay := c.relay.turnAway } lines
        (l.note .subscribe (c.relay.room.step .subscribe).1) []
  | reload {c : Collector} {lines : List String} {l : Log} (h : Relaying capacity c lines l [])
      (r : Resolver) (fs : Files) (serial : Nat) :
      Relaying capacity (c.reload r fs serial) lines l []

namespace Relaying

variable {capacity : Nat} {c : Collector} {lines : List String} {l : Log} {todo : List Relay.Step}

theorem bind {m : Machine} {handle : Handle CollectorConfig}
    (h : (Collector.bind m handle).1 = .ok c) :
    Relaying handle.current.value.broadcastCapacity c [] .fresh [] := by
  rw [Collector.bind] at h
  split at h
  · cases h
  · split at h
    · cases h
    · split at h
      · cases h
      · cases h
        exact .start _ _ rfl

/-- A broadcast that was begun is brought to its end. -/
theorem run (h : Relaying capacity c lines l todo) :
    ∃ l', Relaying capacity { c with relay := c.relay.run todo } lines l' [] := by
  induction todo generalizing c l with
  | nil => exact ⟨l, h⟩
  | cons s todo ih => exact ih h.master

theorem handleDatagram (h : Relaying capacity c lines l []) (sender : SocketAddress)
    (bytes : List UInt8) :
    ∃ l', Relaying capacity (c.handleDatagram sender bytes).2
      (lines ++ (c.handleDatagram sender bytes).1.toList) l' [] := by
  rw [Collector.handleDatagram]
  cases hline : c.demux.handle c.handle.current.value.sources sender bytes with
  | mk line demux =>
      have hrun := (h.datagram hline).run
      cases line with
      | none => exact hrun
      | some line =>
          rw [Option.elim_some, Relay.run_cycle] at hrun
          exact hrun

theorem drain (h : Relaying capacity c lines l []) (inbox : List Arrival) :
    ∃ l', Relaying capacity (c.drain inbox).2.1 (lines ++ (c.drain inbox).1.filterMap id) l' [] := by
  fun_induction Collector.drain c inbox generalizing lines l with
  | case1 c inbox sender bytes rest hreceive line c' hline lines' c'' rest' hdrain ih =>
      have hone := h.handleDatagram sender bytes
      rw [hline] at hone
      rcases hone with ⟨l', h'⟩
      have hrest := ih h'
      rw [hdrain, List.append_assoc] at hrest
      cases line with
      | none => exact hrest
      | some line => exact hrest
  | case2 c inbox rest hreceive =>
      rw [List.filterMap_nil, List.append_nil]
      exact ⟨l, h⟩
  | case3 c inbox error rest hreceive =>
      rw [List.filterMap_nil, List.append_nil]
      exact ⟨l, h⟩

theorem acceptAll (h : Relaying capacity c lines l []) (connections : List Connection)
    (hroom : l.joins + connections.length < Admission.epochs) :
    ∃ l', Relaying capacity (c.acceptAll connections).2.1 lines l' [] := by
  induction connections generalizing c l with
  | nil => exact ⟨l, h⟩
  | cons connection rest ih =>
      rw [List.length_cons, ← Nat.add_assoc, Nat.add_right_comm] at hroom
      have hone : l.joins + 1 < Admission.epochs :=
        Nat.lt_of_le_of_lt (Nat.le_add_right _ rest.length) hroom
      have hrest : l.joins + rest.length < Admission.epochs :=
        Nat.lt_of_le_of_lt (Nat.add_le_add_right (Nat.le_succ l.joins) rest.length) hroom
      cases connection with
      | interrupted => exact ih h hrest
      | fault f => exact ⟨l, h⟩
      | client prepared forked =>
          rw [Collector.acceptAll]
          split
          · exact ih (h.connect hone) hroom
          · split
            · exact ih (h.turnAway hone) hroom
            · exact ih h hrest

end Relaying

/-! ## Lines and cycles -/

def contentOf (lines : List (List UInt8)) (i : Nat) : List UInt8 :=
  lines[i - 1]?.getD []

theorem contentOf_succ {lines : List (List UInt8)} {i : Nat} {line : List UInt8}
    (h : lines[i]? = some line) : contentOf lines (i + 1) = line := by
  rw [contentOf, Nat.add_sub_cancel, h]
  rfl

theorem length_contentOf_fitting (capacity : Nat) (lines : List String) (i : Nat) :
    (contentOf (fitting capacity lines) i).length ≤ capacity := by
  rw [contentOf]
  cases hline : (fitting capacity lines)[i - 1]? with
  | none => exact Nat.zero_le capacity
  | some line =>
      have hmem := List.mem_of_getElem? hline
      exact of_decide_eq_true (List.mem_filter.1 hmem).2

theorem fitting_append (capacity : Nat) (lines : List String) (line : String) :
    fitting capacity (lines ++ [line])
      = fitting capacity lines
        ++ if line.toUTF8.toList.length ≤ capacity then [line.toUTF8.toList] else [] := by
  rw [fitting, fitting, List.map_append, List.filter_append]
  congr 1
  by_cases hfits : line.toUTF8.toList.length ≤ capacity
  · rw [if_pos hfits]
    exact List.filter_cons_of_pos (decide_eq_true hfits)
  · rw [if_neg hfits]
    exact List.filter_cons_of_neg fun h => hfits (of_decide_eq_true h)

/-- How far the broadcast of the last line got, and what is left of it. -/
inductive Underway (lines : List (List UInt8)) :
    (cycle : Nat) → Stage → (todo : List Relay.Step) → Prop where
  | idle {stage : Stage} (hstage : stage = .unbegun ∨ stage = .opened) :
      Underway lines lines.length stage []
  | forbid {cycle : Nat} {stage : Stage} (hstage : stage = .unbegun ∨ stage = .opened)
      {line : List UInt8} (hline : lines[cycle]? = some line) (hlast : cycle + 1 = lines.length) :
      Underway lines cycle stage [.forbid, .write line, .permit]
  | write {cycle : Nat} {line : List UInt8} (hline : lines[cycle]? = some line)
      (hlast : cycle + 1 = lines.length) :
      Underway lines (cycle + 1) .forbidden [.write line, .permit]
  | permit : Underway lines lines.length .written [.permit]

namespace Underway

variable {lines : List (List UInt8)} {cycle : Nat} {stage : Stage} {todo : List Relay.Step}

theorem of_idle (h : Underway lines cycle stage []) :
    cycle = lines.length ∧ (stage = .unbegun ∨ stage = .opened) := by
  cases h with
  | idle hstage => exact ⟨rfl, hstage⟩

/-- The next step is one that the schedule has for these lines. -/
theorem step {l : Log} {s : Relay.Step} (h : Underway lines l.cycle l.stage (s :: todo))
    (r : Relay) {content : Nat → List UInt8}
    (hcontent : ∀ i line, lines[i]? = some line → content (i + 1) = line) :
    Relay.Allows content l s ∧ Underway lines (r.note l s).cycle (r.note l s).stage todo := by
  rcases l with ⟨cycle, stage, joins, readers⟩
  dsimp only at h
  cases h with
  | forbid hstage hline hlast => exact ⟨hstage, .write hline hlast⟩
  | write hline hlast => exact ⟨⟨rfl, (hcontent _ _ hline).symm⟩, hlast ▸ .permit⟩
  | permit => exact ⟨rfl, .idle (.inr rfl)⟩

/-- A line that fits is the next one to be broadcast. -/
theorem begin (h : Underway lines cycle stage []) (r : Relay) (line : List UInt8) :
    Underway (lines ++ if line.length ≤ r.room.region.capacity then [line] else []) cycle stage
      (r.cycle line) := by
  rcases h.of_idle with ⟨hcycle, hstage⟩
  rw [Relay.cycle]
  by_cases hfits : line.length ≤ r.room.region.capacity
  · rw [if_pos hfits, if_pos hfits]
    apply Underway.forbid hstage
    · rw [hcycle]
      exact List.getElem?_concat_length
    · rw [hcycle, List.length_append, List.length_singleton]
  · rw [if_neg hfits, if_neg hfits, List.append_nil]
    exact h

end Underway

namespace Relaying

variable {capacity : Nat} {c : Collector} {lines : List String} {l : Log} {todo : List Relay.Step}

/-- A run follows the schedule that has the lines that fit as the contents of its cycles. -/
theorem served (h : Relaying capacity c lines l todo) :
    Underway (fitting capacity lines) l.cycle l.stage todo
      ∧ ∀ content, (∀ i line, (fitting capacity lines)[i]? = some line → content (i + 1) = line) →
          Relay.Served content capacity c.relay l := by
  induction h with
  | start c name hrelay => exact ⟨.idle (.inl rfl), fun content _ => hrelay ▸ .start name⟩
  | @datagram c lines l h sender bytes line demux hline ih =>
      rcases ih with ⟨hunderway, hserved⟩
      cases line with
      | none =>
          rw [Option.toList_none, List.append_nil]
          exact ⟨hunderway, hserved⟩
      | some line =>
          have hcapacity : c.relay.room.region.capacity = capacity :=
            ((hserved _ fun _ _ => contentOf_succ).scheduled.consistent
              (length_contentOf_fitting capacity lines)).capacity_eq
          have hbegin := hunderway.begin c.relay line.toUTF8.toList
          rw [hcapacity] at hbegin
          rw [Option.toList_some, fitting_append]
          refine ⟨hbegin, fun content hcontent => hserved content fun i line' hline' => ?_⟩
          have hi := (List.getElem?_eq_some_iff.1 hline').1
          exact hcontent i line' ((List.getElem?_append_left hi).trans hline')
  | @master c lines l s todo h ih =>
      rcases ih with ⟨hunderway, hserved⟩
      refine ⟨(hunderway.step c.relay fun _ _ => contentOf_succ).2, fun content hcontent => ?_⟩
      exact (hserved content hcontent).step s (hunderway.step c.relay hcontent).1
  | @serve c lines l todo h i outcome ih =>
      rcases Relay.note_serve c.relay l i outcome with ⟨hcycle, hstage⟩
      rw [hcycle, hstage]
      exact ⟨ih.1, fun content hcontent => (ih.2 content hcontent).step (.serve i outcome) trivial⟩
  | connect h hroom ih =>
      exact ⟨ih.1, fun content hcontent => (ih.2 content hcontent).step .connect hroom⟩
  | turnAway h hroom ih =>
      exact ⟨ih.1, fun content hcontent => (ih.2 content hcontent).turnAway hroom⟩
  | @reload c lines l h r fs serial ih =>
      have hrelay : (c.reload r fs serial).relay = c.relay := by
        rw [Collector.reload]
        split
        · rfl
        · rfl
      rw [hrelay]
      exact ih

end Relaying
end Collector
end Telemetry
