import Telemetry.Proofs.Packet.Framing

/-!
# Rolling over — a list of measurements in several datagrams

`buildPackets` closes a packet when the next measurement does not fit.  `SealedPacket` is one of its
datagrams with the builder that finished it.  The datagrams hold, one behind the other, exactly the
measurements that fit a packet of their own, in order (`exists_sealed_buildPackets`), and a receiver
reads back just these (`buildPackets_roundTrip`).
-/

namespace Telemetry

def PacketLimit.admits (limit : PacketLimit) (m : Measurement) : Bool :=
  headerSize + m.packedSize .current < limit.bytes

/-- A builder that is about to be finished, and what it holds. -/
structure SealedPacket (limit : PacketLimit) (timestamp : UInt64) where
  builder : PacketBuilder
  held : List Measurement
  holds : builder.Holds held
  held_ne_nil : held ≠ []
  limit_eq : builder.limit = limit
  timestamp_eq : builder.timestamp = timestamp

namespace SealedPacket

variable {limit : PacketLimit} {timestamp : UInt64}

def datagram (p : SealedPacket limit timestamp) : List UInt8 :=
  p.builder.finish

def packet (p : SealedPacket limit timestamp) : Packet :=
  ⟨p.builder.sealedHeader, .current, p.builder.payload⟩

theorem parse_datagram (p : SealedPacket limit timestamp) :
    Packet.parse p.datagram = .ok p.packet :=
  p.holds.parse_finish

theorem timestamp_packet (p : SealedPacket limit timestamp) : p.packet.timestamp = timestamp :=
  p.timestamp_eq

theorem measurements_packet (p : SealedPacket limit timestamp)
    (hnul : ∀ m ∈ p.held, '\x00' ∉ m.argument.toList) :
    p.packet.measurements = p.held.map fun m => .ok (m.carried .current) :=
  p.holds.measurements_finish hnul

theorem wellFormed_packet (p : SealedPacket limit timestamp)
    (hnul : ∀ m ∈ p.held, '\x00' ∉ m.argument.toList) :
    p.packet.wellFormed = p.held.map (Measurement.carried .current) := by
  rw [Packet.wellFormed, p.measurements_packet hnul, List.filterMap_map]
  exact congrFun List.filterMap_eq_map p.held

theorem length_datagram (p : SealedPacket limit timestamp) : p.datagram.length < limit.bytes := by
  have hlt := p.holds.size_lt
  rw [p.limit_eq] at hlt
  simpa [datagram] using hlt

end SealedPacket

namespace PacketBuilder

variable {limit : PacketLimit} {timestamp : UInt64} {b : PacketBuilder} {held : List Measurement}

theorem Holds.isEmpty_iff (h : b.Holds held) : b.isEmpty = true ↔ held = [] := by
  rw [isEmpty, h.count_eq, beq_iff_eq, List.length_eq_zero_iff]

theorem Holds.size_of_nil (h : b.Holds []) : b.size = headerSize := by
  rw [size, h.payload_eq]
  rfl

/-- A new packet takes a measurement exactly if a packet of its own can hold it. -/
theorem holds_push_start (limit : PacketLimit) (timestamp : UInt64) (m : Measurement) :
    (((start limit timestamp).push m).2).Holds ([m].filter limit.admits)
      ∧ ((start limit timestamp).push m).2.limit = limit
      ∧ ((start limit timestamp).push m).2.timestamp = timestamp := by
  have hstart := holds_start limit timestamp
  have hsize : (start limit timestamp).size = headerSize := hstart.size_of_nil
  rcases hstart.push m with ⟨-, hroom, hnext, hlimit, htime⟩ | ⟨-, hfull, hsame⟩
  · rw [hsize] at hroom
    have hadmits : limit.admits m = true := decide_eq_true hroom
    rw [List.filter_cons_of_pos hadmits]
    exact ⟨hnext, hlimit, htime⟩
  · rw [hsize] at hfull
    have hadmits : ¬limit.admits m = true := fun h => Nat.not_lt.2 hfull (of_decide_eq_true h)
    rw [List.filter_cons_of_neg hadmits, hsame]
    exact ⟨hstart, rfl, rfl⟩

/-- What the next measurement does: the open packet takes it; or it fits no packet and is left out; or
the open packet goes out, and a new one takes the measurement if a packet of its own can hold it. -/
theorem Holds.continuePackets_cons (h : b.Holds held) (m : Measurement) (ms : List Measurement) :
    (∃ b', continuePackets b (m :: ms) = continuePackets b' ms
        ∧ b.size + m.packedSize .current < b.limit.bytes
        ∧ b'.Holds (held ++ [m]) ∧ b'.limit = b.limit ∧ b'.timestamp = b.timestamp)
      ∨ (continuePackets b (m :: ms) = continuePackets b ms
        ∧ held = [] ∧ ¬b.limit.admits m = true)
      ∨ ∃ b', continuePackets b (m :: ms) = b.finish :: continuePackets b' ms
        ∧ held ≠ [] ∧ b.limit.bytes ≤ b.size + m.packedSize .current
        ∧ b'.Holds ([m].filter b.limit.admits) ∧ b'.limit = b.limit
        ∧ b'.timestamp = b.timestamp := by
  rw [continuePackets]
  rcases h.push m with ⟨hyes, hroom, hnext, hlimit, htime⟩ | ⟨hno, hfull, -⟩
  · rw [← Prod.eta (b.push m), hyes]
    exact .inl ⟨(b.push m).2, rfl, hroom, hnext, hlimit, htime⟩
  rw [← Prod.eta (b.push m), hno]
  dsimp only
  by_cases hempty : held = []
  · -- not even an empty packet takes it
    subst hempty
    rw [h.size_of_nil] at hfull
    rw [if_pos (h.isEmpty_iff.2 rfl)]
    exact .inr (.inl ⟨rfl, rfl, fun hm => Nat.not_lt.2 hfull (of_decide_eq_true hm)⟩)
  · rw [if_neg fun hb => hempty (h.isEmpty_iff.1 hb)]
    obtain ⟨hnext, hlimit, htime⟩ := holds_push_start b.limit b.timestamp m
    exact .inr (.inr ⟨_, rfl, hempty, hfull, hnext, hlimit, htime⟩)

/-- The open packet goes out with what fits behind it; every later packet starts anew. -/
theorem exists_sealed_continuePackets (h : b.Holds held) (hlimit : b.limit = limit)
    (htime : b.timestamp = timestamp) (ms : List Measurement) :
    ∃ ps : List (SealedPacket limit timestamp),
      continuePackets b ms = ps.map SealedPacket.datagram
        ∧ ps.flatMap SealedPacket.held = held ++ ms.filter limit.admits := by
  induction ms generalizing b held with
  | nil =>
      rw [continuePackets]
      by_cases hempty : held = []
      · rw [if_pos (h.isEmpty_iff.2 hempty)]
        exact ⟨[], rfl, by simp [hempty]⟩
      · rw [if_neg (fun hb => hempty (h.isEmpty_iff.1 hb))]
        exact ⟨[⟨b, held, h, hempty, hlimit, htime⟩], rfl, by simp⟩
  | cons m ms ih =>
      have hsize : headerSize ≤ b.size := Nat.le_add_right _ _
      rcases h.continuePackets_cons m ms with
        ⟨b', hcons, hroom, hnext, hlimit', htime'⟩ | ⟨hcons, rfl, hadmits⟩
          | ⟨b', hcons, hempty, -, hnext, hlimit', htime'⟩
      · -- the open packet takes the measurement, so a packet of its own could hold it as well
        have hadmits : limit.admits m = true := decide_eq_true (by rw [← hlimit]; omega)
        obtain ⟨ps, hps, hheld⟩ := ih hnext (hlimit'.trans hlimit) (htime'.trans htime)
        refine ⟨ps, hcons.trans hps, ?_⟩
        rw [hheld, List.filter_cons_of_pos hadmits, ← List.append_cons]
      · rw [hlimit] at hadmits
        rw [hcons, List.filter_cons_of_neg hadmits]
        exact ih h hlimit htime
      · obtain ⟨ps, hps, hheld⟩ := ih hnext (hlimit'.trans hlimit) (htime'.trans htime)
        refine ⟨⟨b, held, h, hempty, hlimit, htime⟩ :: ps, ?_, ?_⟩
        · rw [hcons, hps]
          rfl
        · rw [List.flatMap_cons, hheld, hlimit, ← List.filter_append]
          rfl

end PacketBuilder

/-- The datagrams hold, in order, exactly the measurements that fit a packet of their own. -/
theorem exists_sealed_buildPackets (limit : PacketLimit) (timestamp : UInt64)
    (ms : List Measurement) :
    ∃ ps : List (SealedPacket limit timestamp),
      buildPackets limit timestamp ms = ps.map SealedPacket.datagram
        ∧ ps.flatMap SealedPacket.held = ms.filter limit.admits :=
  PacketBuilder.exists_sealed_continuePackets (PacketBuilder.holds_start limit timestamp) rfl rfl ms

/-- Every datagram is accepted, is below the limit and carries the timestamp and a measurement.  All of
them together give back, in order, the measurements that fit a packet of their own, and no others;
each argument is cut to 63 bytes. -/
theorem buildPackets_roundTrip (limit : PacketLimit) (timestamp : UInt64) (ms : List Measurement)
    (hnul : ∀ m ∈ ms, '\x00' ∉ m.argument.toList) :
    (∀ d ∈ buildPackets limit timestamp ms, d.length < limit.bytes)
      ∧ ∃ packets : List Packet,
        (buildPackets limit timestamp ms).map Packet.parse = packets.map .ok
        ∧ (∀ p ∈ packets, p.timestamp = timestamp ∧ p.measurements ≠ [])
        ∧ ∃ shorten : String → String, (∀ s, Utf8.IsCut 63 s (shorten s))
          ∧ packets.flatMap Packet.measurements
            = (ms.filter fun m => headerSize + m.packedSize .current < limit.bytes).map fun m =>
                .ok ⟨shorten m.argument, m.record⟩ := by
  obtain ⟨ps, hdatagrams, hheld⟩ := exists_sealed_buildPackets limit timestamp ms
  have hnul' : ∀ p ∈ ps, ∀ m ∈ p.held, '\x00' ∉ m.argument.toList := by
    intro p hp m hm
    have hmem : m ∈ ms.filter limit.admits := hheld ▸ List.mem_flatMap.2 ⟨p, hp, hm⟩
    exact hnul m (List.mem_filter.1 hmem).1
  rw [hdatagrams]
  refine ⟨?_, ps.map SealedPacket.packet, ?_, ?_, Utf8.cut 63, Utf8.isCut_cut 63, ?_⟩
  · intro d hd
    rcases List.mem_map.1 hd with ⟨p, -, rfl⟩
    exact p.length_datagram
  · rw [List.map_map, List.map_map]
    exact List.map_congr_left fun p _ => p.parse_datagram
  · intro packet hpacket
    rcases List.mem_map.1 hpacket with ⟨p, hp, rfl⟩
    refine ⟨p.timestamp_packet, ?_⟩
    rw [p.measurements_packet (hnul' p hp)]
    simpa using p.held_ne_nil
  · calc (ps.map SealedPacket.packet).flatMap Packet.measurements
        = ps.flatMap fun p => p.held.map fun m => .ok (m.carried .current) := by
          rw [List.flatMap_map]
          exact congrArg List.flatten
            (List.map_congr_left fun p hp => p.measurements_packet (hnul' p hp))
      _ = (ps.flatMap SealedPacket.held).map fun m => .ok (m.carried .current) :=
          List.map_flatMap.symm
      _ = (ms.filter limit.admits).map fun m => .ok (m.carried .current) := by rw [hheld]

/-- Of three measurements the second fits no packet; the argument of the third is cut. -/
theorem buildPackets_roundTrip_oversized :
    let cpu : Measurement := ⟨"0", .zeroed .cpu⟩
    let filter : Measurement := ⟨"", .zeroed .packetFilter⟩
    let load : Measurement := ⟨String.ofList (List.replicate 40 'é'), .zeroed .load⟩
    let datagrams := buildPackets ⟨100, by decide, by decide⟩ 7 [cpu, filter, load]
    (∀ m ∈ [cpu, filter, load], '\x00' ∉ m.argument.toList)
      ∧ (∀ d ∈ datagrams, d.length < 100)
      ∧ ∃ packets : List Packet, datagrams.map Packet.parse = packets.map .ok
        ∧ packets.flatMap Packet.measurements
          = [.ok cpu, .ok ⟨String.ofList (List.replicate 31 'é'), load.record⟩] := by
  intro cpu filter load datagrams
  have hnul : ∀ m ∈ [cpu, filter, load], '\x00' ∉ m.argument.toList := by decide
  obtain ⟨hlength, packets, hparse, -, shorten, hcut, hback⟩ :=
    buildPackets_roundTrip ⟨100, by decide, by decide⟩ 7 [cpu, filter, load] hnul
  refine ⟨hnul, hlength, packets, hparse, ?_⟩
  have hfits : [cpu, filter, load].filter (fun m => headerSize + m.packedSize .current < 100)
      = [cpu, load] := by decide +kernel
  have hshort (s t : String) (h : Utf8.cut 63 s = t) : shorten s = t :=
    ((hcut s).unique (Utf8.isCut_cut 63 s)).trans h
  rw [hback, hfits, List.map_cons, List.map_singleton, hshort cpu.argument "0" (by decide +kernel),
    hshort load.argument (String.ofList (List.replicate 31 'é')) (by decide +kernel)]

end Telemetry
