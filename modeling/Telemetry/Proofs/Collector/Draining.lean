import Mathlib.Data.List.TakeWhile
import Telemetry.Proofs.Collector.Delivery
import Telemetry.Proofs.Collector.Relaying

/-!
# Draining — what one call takes off a socket

A socket is read until it gives nothing, or until it fails.  So a call handles the datagrams, or tries to
serve the clients, that wait in front of the first fault; it uses up that fault and leaves what is behind
it (`Collector.ready_upToFault`).  Without a fault nothing is left.
-/

namespace Telemetry

/-! ## Up to the first fault -/

section

variable {α β : Type} {isFault : α → Bool}

def beforeFault (isFault : α → Bool) (outcomes : List α) : List α :=
  outcomes.takeWhile fun x => !isFault x

def behindFault (isFault : α → Bool) (outcomes : List α) : List α :=
  (outcomes.dropWhile fun x => !isFault x).tail

theorem filterMap_eq_append {value? : α → Option β} (hfault : ∀ x, isFault x = true → value? x = none)
    (outcomes : List α) :
    outcomes.filterMap value?
      = (beforeFault isFault outcomes).filterMap value?
        ++ (behindFault isFault outcomes).filterMap value? := by
  induction outcomes with
  | nil => rfl
  | cons x outcomes ih =>
      cases hx : isFault x with
      | true => simp [beforeFault, behindFault, hx, hfault x hx]
      | false =>
          rw [beforeFault, behindFault] at ih ⊢
          rw [List.takeWhile_cons_of_pos (by simp [hx]), List.dropWhile_cons_of_pos (by simp [hx]),
            List.filterMap_cons, List.filterMap_cons, ih]
          cases value? x with
          | none => rfl
          | some b => rfl

theorem eq_of_noFault {outcomes : List α} (h : ∀ x ∈ outcomes, isFault x = false) :
    beforeFault isFault outcomes = outcomes ∧ behindFault isFault outcomes = [] := by
  have hall : ∀ x ∈ outcomes, (!isFault x) = true := fun x hx => by rw [h x hx]; rfl
  rw [beforeFault, behindFault, List.takeWhile_eq_self_iff.2 hall, List.dropWhile_eq_nil_iff.2 hall]
  exact ⟨rfl, rfl⟩

end

/-! ## Receiving -/

namespace Arrival

def isFault : Arrival → Bool
  | .fault _ => true
  | _ => false

def datagram? : Arrival → Option (SocketAddress × List UInt8)
  | .datagram sender bytes => some (sender, bytes)
  | _ => none

theorem datagram?_of_isFault : ∀ x : Arrival, x.isFault = true → x.datagram? = none
  | .fault _, _ => rfl

end Arrival

namespace Inbox

def datagrams (inbox : List Arrival) : List (SocketAddress × List UInt8) :=
  inbox.filterMap Arrival.datagram?

def reached (inbox : List Arrival) : List (SocketAddress × List UInt8) :=
  datagrams (beforeFault Arrival.isFault inbox)

def stranded (inbox : List Arrival) : List Arrival :=
  behindFault Arrival.isFault inbox

/-- What an attempt to receive does to what is reached: a datagram is the first of it.  If none comes,
none is within reach, and a fault was used up. -/
def Receives (inbox : List Arrival) : Received × List Arrival → Prop
  | (.datagram sender bytes, rest) =>
      reached inbox = (sender, bytes) :: reached rest ∧ stranded inbox = stranded rest
  | (.nothing, rest) | (.failed _, rest) => reached inbox = [] ∧ stranded inbox = rest

theorem receives_receiveWithin {attempts : Nat} {inbox : List Arrival}
    (h : ¬List.replicate attempts .interrupted <+: inbox) :
    Receives inbox (receiveWithin attempts inbox) := by
  induction attempts generalizing inbox with
  | zero => exact absurd List.nil_prefix h
  | succ attempts ih =>
      match inbox with
      | [] => exact ⟨rfl, rfl⟩
      | .datagram sender bytes :: rest => exact ⟨rfl, rfl⟩
      | .fault f :: rest => exact ⟨rfl, rfl⟩
      | .interrupted :: rest =>
          -- one attempt fewer, and one interruption fewer
          rw [List.replicate_succ, List.cons_prefix_cons, not_and] at h
          have hrest := ih (h rfl)
          rw [receiveWithin]
          generalize receiveWithin attempts rest = result at hrest ⊢
          obtain ⟨_ | _ | _, left⟩ := result
          · exact hrest
          · exact hrest
          · exact hrest

theorem receiveWithin_suffix (attempts : Nat) (inbox : List Arrival) :
    (receiveWithin attempts inbox).2 <:+ inbox := by
  induction attempts generalizing inbox with
  | zero => exact List.suffix_rfl
  | succ attempts ih =>
      match inbox with
      | [] => exact List.suffix_rfl
      | .datagram _ _ :: rest => exact List.suffix_cons _ _
      | .fault _ :: rest => exact List.suffix_cons _ _
      | .interrupted :: rest => exact (ih rest).trans (List.suffix_cons _ _)

theorem receives_receive {inbox : List Arrival}
    (h : ¬List.replicate receiveAttempts .interrupted <:+: inbox) :
    Receives inbox (receive inbox) :=
  receives_receiveWithin fun hprefix => h hprefix.isInfix

theorem receive_suffix (inbox : List Arrival) : (receive inbox).2 <:+ inbox :=
  receiveWithin_suffix receiveAttempts inbox

end Inbox

namespace Collector

/-! ## Datagrams -/

def calls (c : Collector) (datagrams : List (SocketAddress × List UInt8)) : List Demux.Call :=
  datagrams.map fun d => ⟨c.handle.current.value.sources, d.1, d.2⟩

theorem handleDatagram_keeps (c : Collector) (sender : SocketAddress) (bytes : List UInt8) :
    (c.handleDatagram sender bytes).2.handle = c.handle
      ∧ ((c.handleDatagram sender bytes).1, (c.handleDatagram sender bytes).2.demux)
        = c.demux.handle c.handle.current.value.sources sender bytes := by
  rw [handleDatagram]
  split
  next demux hhandle => exact ⟨rfl, hhandle.symm⟩
  next line demux hhandle => exact ⟨rfl, hhandle.symm⟩

/-- Draining handles the datagrams in front of the first fault, in order, and leaves what is behind it. -/
theorem drain_eq (c : Collector) {inbox : List Arrival}
    (h : ¬List.replicate receiveAttempts .interrupted <:+: inbox) :
    ((c.drain inbox).1, (c.drain inbox).2.1.demux) = c.demux.run (c.calls (Inbox.reached inbox))
      ∧ (c.drain inbox).2.2 = Inbox.stranded inbox := by
  fun_induction drain c inbox with
  | case1 c inbox sender bytes rest hreceive line c' hline lines c'' left hdrain ih =>
      have hone := Inbox.receives_receive h
      rw [hreceive] at hone
      obtain ⟨hreached, hstranded⟩ := hone
      obtain ⟨hhandle, hdemux⟩ := c.handleDatagram_keeps sender bytes
      -- no five interruptions in a row among what is left either
      have hsuffix := Inbox.receive_suffix inbox
      rw [hreceive] at hsuffix
      obtain ⟨hlines, hleft⟩ := ih fun hrow => h (hrow.trans hsuffix.isInfix)
      rw [hline] at hhandle hdemux
      rw [hdrain] at hlines hleft
      rw [hreached, hstranded]
      refine ⟨?_, hleft⟩
      -- the sources are the same for all datagrams of the call
      have hcalls : c'.calls (Inbox.reached rest) = c.calls (Inbox.reached rest) := by
        rw [calls, calls, hhandle]
      rw [hcalls] at hlines
      rw [calls, List.map_cons, Demux.run, ← hdemux]
      dsimp only
      rw [← calls, ← hlines]
  | case2 c inbox rest hreceive =>
      have hone := Inbox.receives_receive h
      rw [hreceive] at hone
      rw [hone.1, hone.2]
      exact ⟨rfl, rfl⟩
  | case3 c inbox error rest hreceive =>
      have hone := Inbox.receives_receive h
      rw [hreceive] at hone
      rw [hone.1, hone.2]
      exact ⟨rfl, rfl⟩

end Collector

/-! ## Clients -/

namespace Connection

def isFault : Connection → Bool
  | .fault _ => true
  | _ => false

def client? : Connection → Option (Bool × Bool)
  | .client prepared forked => some (prepared, forked)
  | _ => none

theorem client?_of_isFault : ∀ x : Connection, x.isFault = true → x.client? = none
  | .fault _, _ => rfl

def clients (connections : List Connection) : List (Bool × Bool) :=
  connections.filterMap client?

def reached (connections : List Connection) : List (Bool × Bool) :=
  clients (beforeFault isFault connections)

def stranded (connections : List Connection) : List Connection :=
  behindFault isFault connections

end Connection

namespace Collector

def attempt (c : Collector) : Bool × Bool → Collector
  | (true, true) => { c with relay := c.relay.connect true }
  | (true, false) => { c with relay := c.relay.turnAway }
  | (false, _) => c

/-- Accepting tries to serve the clients in front of the first fault, in order, and leaves what is behind
it. -/
theorem acceptAll_eq (c : Collector) (connections : List Connection) :
    c.acceptAll connections
      = ((Connection.reached connections).count (true, true),
          (Connection.reached connections).foldl attempt c, Connection.stranded connections) := by
  induction connections generalizing c with
  | nil => rfl
  | cons x connections ih =>
      cases x with
      | interrupted => exact ih c
      | fault f => rfl
      | client prepared forked =>
          have hreached : Connection.reached (.client prepared forked :: connections)
              = (prepared, forked) :: Connection.reached connections := rfl
          have hstranded : Connection.stranded (.client prepared forked :: connections)
              = Connection.stranded connections := rfl
          rw [acceptAll, ih, ih, ih, hreached, hstranded, List.count_cons, List.foldl_cons]
          cases prepared with
          | false => rfl
          | true =>
              cases forked with
              | false => rfl
              | true => rfl

/-! ## One event of readiness -/

/-- If fewer than five interruptions come in a row, a call handles, in order, the datagrams in front of the
first fault, and those behind it are left waiting; so are the clients behind the first fault of a listener.
All are handled, and all are tried, if there is no fault. -/
theorem ready_upToFault (c : Collector) {inbox : List Arrival}
    (h : ¬List.replicate receiveAttempts .interrupted <:+: inbox) (connections : List Connection) :
    let (lines, drained, left) := c.drain inbox
    let (_, accepted, waiting) := c.acceptAll connections
    (lines, drained.demux) = c.demux.run (c.calls (Inbox.reached inbox))
      ∧ Inbox.datagrams inbox = Inbox.reached inbox ++ Inbox.datagrams left
      ∧ ((∀ x ∈ inbox, x.isFault = false) →
        (lines, drained.demux) = c.demux.run (c.calls (Inbox.datagrams inbox)) ∧ left = [])
      ∧ accepted = (Connection.reached connections).foldl attempt c
      ∧ Connection.clients connections
        = Connection.reached connections ++ Connection.clients waiting
      ∧ ((∀ x ∈ connections, x.isFault = false) →
        accepted = (Connection.clients connections).foldl attempt c ∧ waiting = []) := by
  obtain ⟨hdrained, hleft⟩ := c.drain_eq h
  rw [acceptAll_eq]
  dsimp only
  rw [hleft]
  refine ⟨hdrained, filterMap_eq_append Arrival.datagram?_of_isFault inbox, ?_, rfl,
    filterMap_eq_append Connection.client?_of_isFault connections, ?_⟩
  · intro hnone
    obtain ⟨hall, hempty⟩ := eq_of_noFault hnone
    rw [Inbox.reached, hall] at hdrained
    exact ⟨hdrained, hempty⟩
  · intro hnone
    obtain ⟨hall, hempty⟩ := eq_of_noFault hnone
    exact ⟨by rw [Connection.reached, hall], hempty⟩

/-- A datagram and a client behind a fault are left waiting, those in front of it are not. -/
theorem ready_upToFault_refused :
    let address : SocketAddress := ⟨.v4 ⟨127, 0, 0, 1⟩, 0, 2100⟩
    let c : Collector := ⟨⟨"a", ⟨⟨address, none, 16, ⟨[]⟩⟩, 0⟩⟩, ⟨address, true, 0⟩, none,
      .onFiles .fresh, .fresh 16⟩
    let inbox : List Arrival := [.interrupted, .datagram address [1], .fault .connectionRefused,
      .datagram address [2]]
    let connections : List Connection := [.client true true, .fault .outOfMemory, .client true true]
    ¬List.replicate receiveAttempts .interrupted <:+: inbox
      ∧ (c.drain inbox).1 = [none]
      ∧ Inbox.datagrams (c.drain inbox).2.2 = [(address, [2])]
      ∧ (c.acceptAll connections).2.1.relay.clients.length = 1
      ∧ Connection.clients (c.acceptAll connections).2.2 = [(true, true)] := by
  intro address c inbox connections
  have h : ¬List.replicate receiveAttempts .interrupted <:+: inbox := by decide
  obtain ⟨hdrained, hleft, -, haccepted, hwaiting, -⟩ := ready_upToFault c h connections
  refine ⟨h, ?_, ?_, ?_, ?_⟩
  · exact (Prod.mk.inj hdrained).1
  · exact (List.cons.inj hleft).2.symm
  · exact congrArg (fun c => c.relay.clients.length) haccepted
  · exact (List.cons.inj hwaiting).2.symm

/-- Not all datagrams that wait are handled, and not all clients that wait are tried. -/
theorem not_ready_all :
    (¬∀ (c : Collector) (inbox : List Arrival),
        ¬List.replicate receiveAttempts .interrupted <:+: inbox →
          ((c.drain inbox).1, (c.drain inbox).2.1.demux)
            = c.demux.run (c.calls (Inbox.datagrams inbox)))
      ∧ ¬∀ (c : Collector) (connections : List Connection),
          (c.acceptAll connections).2.1 = (Connection.clients connections).foldl attempt c := by
  let address : SocketAddress := ⟨.v4 ⟨127, 0, 0, 1⟩, 0, 2100⟩
  let c : Collector := ⟨⟨"a", ⟨⟨address, none, 16, ⟨[]⟩⟩, 0⟩⟩, ⟨address, true, 0⟩, none,
    .onFiles .fresh, .fresh 16⟩
  constructor
  · intro hall
    let inbox : List Arrival := [.fault .connectionRefused, .datagram address []]
    have h : ¬List.replicate receiveAttempts .interrupted <:+: inbox := by decide
    -- no datagram is handled, where one waits
    have hrun := (c.drain_eq h).1.symm.trans (hall c inbox h)
    exact absurd (congrArg (fun answer => answer.1.length) hrun) (by decide)
  · intro hall
    let connections : List Connection := [.fault .outOfMemory, .client true true]
    have hsame := hall c connections
    rw [acceptAll_eq] at hsame
    exact absurd (congrArg (fun c => c.relay.clients.length) hsame) (by decide)

end Collector
end Telemetry
