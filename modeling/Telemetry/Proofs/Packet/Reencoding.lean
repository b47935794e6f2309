import Telemetry.Proofs.Packet.Framing
import Telemetry.Proofs.Wire.Decoding

/-!
# Reencoding — from a datagram to its measurements and back

The measurements of a payload cover it from the front, each with its packed form, up to the first
malformed one (`Measurement.unpackAll_tiles`).  A `PayloadCursor` reads them one at a time, and comes
to an end (`PayloadCursor.items_eq`).

A builder that is given the measurements of a datagram makes the datagram again, byte for byte, if
that has no malformed measurement and is one that a builder can make (`Packet.reencode`).
-/

namespace Telemetry

/-! ## Payloads -/

namespace Measurement

variable {v : ProtocolVersion} {bytes : List UInt8}

theorem unpackAll_of_error {e : WireError} (hne : bytes ≠ []) (h : unpack v bytes = .error e) :
    unpackAll v bytes = [.error e] := by
  rw [unpackAll, if_neg hne]
  split
  · next e' he =>
    rw [h] at he
    cases he
    rfl
  · next m n hm =>
    rw [h] at hm
    contradiction

/-- The measurements that are read stand one behind the other at the front; if bytes are left, they
begin with a malformed one. -/
theorem unpackAll_tiles (v : ProtocolVersion) (bytes : List UInt8) :
    ∃ ms rest, bytes = encodeAll v ms ++ rest ∧ (∀ m ∈ ms, v.supports m.kind = true)
      ∧ (unpackAll v bytes = ms.map .ok ∧ rest = []
        ∨ ∃ e, unpackAll v bytes = ms.map .ok ++ [.error e]) := by
  -- the induction is that of the reading: the end, a malformed measurement, or one more in front
  induction bytes using unpackAll.induct v with
  | case1 =>
      exact ⟨[], [], rfl, nofun, .inl ⟨unpackAll_nil v, rfl⟩⟩
  | case2 bytes hne e he =>
      exact ⟨[], bytes, rfl, nofun, .inr ⟨e, unpackAll_of_error hne he⟩⟩
  | case3 bytes hne m used hm ih =>
      obtain ⟨hs, -, -, hused, tail, hbytes⟩ := unpack_eq_ok_iff.1 hm
      have hdrop : bytes.drop used = tail := by
        rw [hbytes, hused, ← m.length_encode v, List.drop_left]
      obtain ⟨ms, rest, htail, hsupported, hitems⟩ := ih
      have hcons : unpackAll v bytes = .ok m :: unpackAll v (bytes.drop used) :=
        unpackAll_of_unpack hm
      refine ⟨m :: ms, rest, ?_, List.forall_mem_cons.2 ⟨hs, hsupported⟩, ?_⟩
      · rw [encodeAll_cons, List.append_assoc, ← htail, hdrop]
        exact hbytes
      · rw [hcons, List.map_cons]
        rcases hitems with ⟨hitems, hrest⟩ | ⟨e, hitems⟩
        · exact .inl ⟨by rw [hitems], hrest⟩
        · exact .inr ⟨e, by rw [hitems, List.cons_append]⟩

theorem two_mul_length_le_encodeAll (v : ProtocolVersion) (ms : List Measurement) :
    2 * ms.length ≤ (encodeAll v ms).length := by
  induction ms with
  | nil => exact Nat.le_refl 0
  | cons m ms ih =>
      have htwo := m.two_le_packedSize v
      rw [encodeAll_cons, List.length_append, length_encode, List.length_cons]
      omega

end Measurement

/-! ## Reading one at a time -/

structure PayloadCursor where
  version : ProtocolVersion
  payload : List UInt8
  offset : Nat
  /-- whether a malformed measurement was met -/
  failed : Bool

namespace PayloadCursor

def next (c : PayloadCursor) : Option (Except WireError Measurement × PayloadCursor) :=
  if c.failed ∨ c.payload.length ≤ c.offset then none
  else
    match Measurement.unpack c.version (c.payload.drop c.offset) with
    | .ok (m, used) => some (.ok m, { c with offset := c.offset + used })
    | .error e => some (.error e, { c with failed := true })

def items (c : PayloadCursor) : (n : Nat) → List (Except WireError Measurement)
  | 0 => []
  | n + 1 =>
      match c.next with
      | none => []
      | some (item, c) => item :: c.items n

theorem items_of_failed {c : PayloadCursor} (h : c.failed = true) (n : Nat) : c.items n = [] := by
  cases n with
  | zero => rfl
  | succ n => rw [items, next, if_pos (.inl h)]

/-- A cursor gives the measurements of what is left, and then nothing. -/
theorem items_eq {c : PayloadCursor} (h : c.failed = false) (n : Nat) :
    c.items n = (Measurement.unpackAll c.version (c.payload.drop c.offset)).take n := by
  induction n generalizing c with
  | zero => rfl
  | succ n ih =>
      rw [items, next, h]
      -- nothing is left, or what is left begins with a measurement, malformed or not
      by_cases hend : c.payload.length ≤ c.offset
      · rw [if_pos (.inr hend), List.drop_eq_nil_of_le hend, Measurement.unpackAll_nil, List.take_nil]
      · have hne : c.payload.drop c.offset ≠ [] := by
          rw [Ne, List.drop_eq_nil_iff]
          exact hend
        rw [if_neg (by simpa using hend)]
        cases hunpack : Measurement.unpack c.version (c.payload.drop c.offset) with
        | error e =>
            dsimp only
            rw [Measurement.unpackAll_of_error hne hunpack, List.take_succ_cons, List.take_nil,
              items_of_failed rfl]
        | ok answer =>
            dsimp only
            rw [Measurement.unpackAll_of_unpack hunpack, List.take_succ_cons, ih rfl, List.drop_drop]

end PayloadCursor

def Packet.cursor (p : Packet) : PayloadCursor :=
  ⟨p.version, p.payload, 0, false⟩

/-! ## Headers -/

theorem ProtocolVersion.toByte_of_ofByte {b : UInt8} {v : ProtocolVersion} (h : ofByte b = .ok v) :
    v.toByte = b := by
  unfold ofByte at h
  split at h
  · next hb =>
    cases h
    exact (eq_of_beq hb).symm
  · split at h
    · next hb =>
      cases h
      exact (eq_of_beq hb).symm
    · contradiction

/-- Bytes are spelt again by the number that they spell. -/
theorem Wire.bigEndian_of_length {bs : List UInt8} {size n : Nat} (hlength : bs.length = size)
    (hn : n = ofBigEndian bs % Nat.pow 256 size) : bigEndian size n = bs := by
  rw [hn, ← hlength, Nat.mod_eq_of_lt (ofBigEndian_lt bs), bigEndian_ofBigEndian]

/-- A datagram begins with the bytes of the header that is read from it. -/
theorem PacketHeader.bytes_of_read? {d : List UInt8} {h : PacketHeader} (hread : read? d = some h) :
    h.bytes ++ d.drop headerSize = d := by
  unfold read? at hread
  split at hread
  · next version reserved rest =>
    split at hread
    · next hsize =>
      cases hread
      rw [headerSize, List.length_cons, List.length_cons] at hsize
      have hlength : Wire.bigEndian 2 (Wire.ofBigEndian (rest.take 2)).toUInt16.toNat
          = rest.take 2 := Wire.bigEndian_of_length (by rw [List.length_take]; omega) rfl
      have hchecksum : Wire.bigEndian 4 (Wire.ofBigEndian ((rest.drop 2).take 4)).toUInt32.toNat
          = (rest.drop 2).take 4 :=
        Wire.bigEndian_of_length (by rw [List.length_take, List.length_drop]; omega) rfl
      have htimestamp : Wire.bigEndian 8 (Wire.ofBigEndian ((rest.drop 6).take 8)).toUInt64.toNat
          = (rest.drop 6).take 8 :=
        Wire.bigEndian_of_length (by rw [List.length_take, List.length_drop]; omega) rfl
      rw [bytes]
      dsimp only
      rw [hlength, hchecksum, htimestamp]
      -- the fields stand one behind the other
      have hbehind : (rest.drop 6).take 8 ++ rest.drop 14 = rest.drop 6 := by
        rw [← List.take_append_drop 8 (rest.drop 6), List.drop_drop, List.take_left' (by simp; omega)]
      have hmiddle : (rest.drop 2).take 4 ++ rest.drop 6 = rest.drop 2 := by
        rw [← List.take_append_drop 4 (rest.drop 2), List.drop_drop, List.take_left' (by simp; omega)]
      have hdrop : (version :: reserved :: rest).drop headerSize = rest.drop 14 := rfl
      rw [hdrop, List.append_assoc, hbehind, List.append_assoc, hmiddle, List.append_assoc,
        List.take_append_drop]
      rfl
    · contradiction
  · contradiction

namespace Packet

/-- What a datagram that passes is made of. -/
theorem sealed_of_parse {d : List UInt8} {p : Packet} (h : parse d = .ok p) :
    p.header.bytes ++ p.payload = d ∧ p.header.checksum = datagramChecksum d
      ∧ p.header.version = p.version.toByte ∧ p.header.length.toNat = d.length
      ∧ p.payload = d.drop headerSize := by
  unfold parse at h
  split at h
  · contradiction
  next header hread =>
  dsimp only at h
  split at h
  · contradiction
  next hchecksum =>
  split at h
  · contradiction
  next version hversion =>
  split at h
  · contradiction
  next hlength =>
  cases h
  exact ⟨PacketHeader.bytes_of_read? hread, not_not.1 hchecksum,
    (ProtocolVersion.toByte_of_ofByte hversion).symm, not_not.1 hlength, rfl⟩

/-- The measurements that are read are the well-formed ones, with at most a malformed one behind
them. -/
theorem measurements_eq (p : Packet) :
    ∃ rest, p.payload = Measurement.encodeAll p.version p.wellFormed ++ rest
      ∧ (∀ m ∈ p.wellFormed, p.version.supports m.kind = true)
      ∧ (p.measurements = p.wellFormed.map .ok ∧ rest = []
        ∨ ∃ e, p.measurements = p.wellFormed.map .ok ++ [.error e]) := by
  obtain ⟨ms, rest, hpayload, hsupported, hitems⟩ :=
    Measurement.unpackAll_tiles p.version p.payload
  have hok : (ms.map Except.ok).filterMap (Except.toOption (ε := WireError)) = ms := by
    rw [List.filterMap_map]
    exact List.filterMap_some
  have hwellFormed : p.wellFormed = ms := by
    rw [wellFormed, measurements]
    rcases hitems with ⟨hitems, -⟩ | ⟨e, hitems⟩
    · rw [hitems, hok]
    · rw [hitems, List.filterMap_append, hok]
      exact List.append_nil ms
  rw [hwellFormed]
  exact ⟨rest, hpayload, hsupported, hitems⟩

/-- Packed forms in front of something malformed, or of nothing, are the well-formed measurements. -/
theorem wellFormed_of_payload {p : Packet} (ms : List Measurement) (rest : List UInt8)
    (hpayload : p.payload = Measurement.encodeAll p.version ms ++ rest)
    (hs : ∀ m ∈ ms, p.version.supports m.kind = true)
    (hnul : ∀ m ∈ ms, '\x00' ∉ m.argument.toList)
    {e : WireError} (hrest : Measurement.unpack p.version rest = .error e) :
    p.wellFormed = ms.map (Measurement.carried p.version) := by
  have hlast : (Measurement.unpackAll p.version rest).filterMap Except.toOption = [] := by
    by_cases hnil : rest = []
    · rw [hnil, Measurement.unpackAll_nil, List.filterMap_nil]
    · rw [Measurement.unpackAll_of_error hnil hrest]
      rfl
  rw [wellFormed, measurements, hpayload, Measurement.unpackAll_encodeAll_append hs hnul,
    List.filterMap_append, hlast, List.append_nil, List.filterMap_map]
  exact congrFun List.filterMap_eq_map ms

end Packet

/-! ## Builders -/

namespace PacketBuilder

/-- Measurements that leave a byte below the limit, all of them together, are taken one by one. -/
theorem Holds.taken_of_room {b : PacketBuilder} {held ms : List Measurement} (h : b.Holds held)
    (hroom : b.size + (Measurement.encodeAll .current ms).length < b.limit.bytes) :
    b.taken ms = ms := by
  induction ms generalizing b held with
  | nil => rfl
  | cons m ms ih =>
      rw [Measurement.encodeAll_cons, List.length_append, Measurement.length_encode] at hroom
      rw [taken]
      rcases h.push m with ⟨hyes, -, hnext, hlimit, -⟩ | ⟨-, hfull, -⟩
      · have hsize : (b.push m).2.size = b.size + m.packedSize .current := by
          rw [size, size, hnext.payload_eq, h.payload_eq, Measurement.encodeAll_append,
            List.length_append, Measurement.encodeAll_cons, List.length_append,
            Measurement.length_encode]
          exact (Nat.add_assoc _ _ _).symm
        rw [if_pos hyes, ih hnext (by rw [hsize, hlimit]; omega)]
      · omega

end PacketBuilder

def PacketLimit.greatest : PacketLimit where
  bytes := maxDatagram
  least_le := by decide
  le_greatest := Nat.le_refl _

namespace Packet

/-- A builder that took the measurements of a payload seals them with the header that they came
with, if that is one of the current version without anything reserved. -/
theorem finish_of_parse {d : List UInt8} {p : Packet} (h : parse d = .ok p)
    (hversion : p.header.version = 2) (hreserved : p.header.reserved = 0) {b : PacketBuilder}
    {ms : List Measurement} (hb : b.Holds ms) (htime : b.timestamp = p.timestamp)
    (hpayload : Measurement.encodeAll .current ms = p.payload) : b.finish = d := by
  obtain ⟨hbytes, hchecksum, -, hlength, -⟩ := sealed_of_parse h
  have hsame : b.payload = p.payload := hb.payload_eq.trans hpayload
  have hsize : b.size.toUInt16 = p.header.length := by
    have hlengths : b.size = p.header.length.toNat := by
      rw [hlength, ← hbytes, List.length_append, PacketHeader.length_bytes, PacketBuilder.size, hsame]
    rw [hlengths]
    exact UInt16.ofNat_toNat
  -- a checksum is computed as if its field were zero, so it does not matter which one is in place
  have hunsealed := datagramChecksum_setChecksum p.header 0 p.payload
  rw [hbytes, ← hchecksum] at hunsealed
  obtain ⟨⟨version, reserved, length, checksum, timestamp⟩, _, payload⟩ := p
  cases hversion
  cases hreserved
  have hheader : b.sealedHeader = ⟨2, 0, length, checksum, timestamp⟩ := by
    rw [PacketBuilder.sealedHeader, hsize, htime, hsame]
    exact congrArg (PacketHeader.mk 2 0 length · timestamp) hunsealed
  rw [PacketBuilder.finish_eq, hheader, hsame]
  exact hbytes

/-- The measurements of a datagram are finitely many, and none but the last is malformed.  The packed
forms of the others begin the payload, and are all of it if none is malformed.  A builder makes the
same datagram of them if it is one that a builder can make. -/
theorem reencode {d : List UInt8} {p : Packet} (h : parse d = .ok p) :
    (∀ n, p.cursor.items n = p.measurements.take n)
      ∧ p.measurements.length ≤ p.payload.length / 2 + 1
      ∧ (p.measurements = p.wellFormed.map .ok
        ∨ ∃ e, p.measurements = p.wellFormed.map .ok ++ [.error e])
      ∧ (∀ m ∈ p.wellFormed, ∀ buffer, m.packedSize p.version < buffer.length →
          (m.pack p.version buffer).2.take (m.pack p.version buffer).1 = m.encode p.version)
      ∧ Measurement.encodeAll p.version p.wellFormed <+: d.drop headerSize
      ∧ ((∀ e, .error e ∉ p.measurements) →
          Measurement.encodeAll p.version p.wellFormed = d.drop headerSize)
      ∧ (d[0]? = some 2 → d[1]? = some 0 → d.length ≤ 65506 → (∀ e, .error e ∉ p.measurements) →
          PacketLimit.ofSize 65507 = .ok .greatest
            ∧ (PacketBuilder.start .greatest p.timestamp).taken p.wellFormed = p.wellFormed
            ∧ ((PacketBuilder.start .greatest p.timestamp).pushAll p.wellFormed).finish = d) := by
  obtain ⟨hbytes, -, hversion, -, hpayload⟩ := sealed_of_parse h
  obtain ⟨rest, htiles, hsupported, hitems⟩ := p.measurements_eq
  have htwo := Measurement.two_mul_length_le_encodeAll p.version p.wellFormed
  have hlength := congrArg List.length htiles
  rw [List.length_append] at hlength
  have hwhole : (∀ e, .error e ∉ p.measurements) →
      Measurement.encodeAll p.version p.wellFormed = p.payload := by
    intro hnone
    rcases hitems with ⟨-, hrest⟩ | ⟨e, hitems⟩
    · rw [htiles, hrest, List.append_nil]
    · exact absurd (hitems ▸ List.mem_append_right _ List.mem_cons_self) (hnone e)
  refine ⟨PayloadCursor.items_eq rfl, ?_, hitems.imp_left And.left, ?_, ?_, ?_, ?_⟩
  -- every measurement takes two bytes at least, the malformed one apart
  · rcases hitems with ⟨hitems, -⟩ | ⟨e, hitems⟩
    · rw [hitems, List.length_map]
      omega
    · rw [hitems, List.length_append, List.length_map, List.length_singleton]
      omega
  · intro m hm buffer hroom
    rw [Measurement.pack_of_room (hsupported m hm) hroom, ← m.length_encode p.version, List.take_left]
  · exact ⟨rest, hpayload ▸ htiles.symm⟩
  · exact fun hnone => (hwhole hnone).trans hpayload
  · intro hfirst hsecond hsmall hnone
    rw [← hbytes] at hfirst hsecond hsmall
    have htwo : p.header.version = 2 := Option.some.inj hfirst
    have hzero : p.header.reserved = 0 := Option.some.inj hsecond
    have hcurrent : p.version = .current := by
      rw [hversion] at htwo
      cases hv : p.version with
      | older => rw [hv] at htwo; cases htwo
      | current => rfl
    rw [hcurrent] at hwhole
    have hstart := PacketBuilder.holds_start .greatest p.timestamp
    have htaken : (PacketBuilder.start .greatest p.timestamp).taken p.wellFormed = p.wellFormed := by
      apply hstart.taken_of_room
      rw [hwhole hnone]
      rw [List.length_append, PacketHeader.length_bytes] at hsmall
      exact Nat.lt_succ_of_le hsmall
    obtain ⟨hholds, -, htime⟩ := hstart.pushAll p.wellFormed
    rw [htaken, List.nil_append] at hholds
    exact ⟨rfl, htaken, finish_of_parse h htwo hzero hholds htime (hwhole hnone)⟩

/-- Two measurements, one of them without an argument. -/
theorem reencode_twoMeasurements :
    let d : List UInt8 :=
      [2, 0, 0, 37, 218, 190, 37, 239, 0, 0, 0, 0, 0, 0, 0, 7, 1, 48, 0, 0, 0, 0, 0, 0, 0, 0, 0, 0,
        0, 15, 0, 0, 0, 0, 0, 0, 0]
    let p : Packet := ⟨⟨2, 0, 37, 0xDABE25EF, 7⟩, .current, d.drop 16⟩
    let ms : List Measurement := [⟨"0", .zeroed .cpu⟩, ⟨"", .zeroed .load⟩]
    parse d = .ok p ∧ p.measurements = ms.map .ok ∧ p.cursor.items 3 = ms.map .ok
      ∧ Measurement.encodeAll .current ms = d.drop 16
      ∧ (PacketBuilder.start .greatest 7).taken ms = ms
      ∧ ((PacketBuilder.start .greatest 7).pushAll ms).finish = d := by
  intro d p ms
  have h : parse d = .ok p := by cbv
  have hpayload : Measurement.encodeAll .current ms = d.drop 16 := by decide +kernel
  have hms : p.measurements = ms.map .ok := by
    have hread : Measurement.unpackAll .current (Measurement.encodeAll .current ms)
        = ms.map fun m => .ok (m.carried .current) :=
      Measurement.unpackAll_encodeAll (by decide) (by decide)
    rw [hpayload] at hread
    exact hread.trans (by decide)
  have hwellFormed : p.wellFormed = ms := by
    rw [wellFormed, hms]
    decide
  obtain ⟨hitems, -, -, -, -, hwhole, hagain⟩ := reencode h
  have hnone : ∀ e, .error e ∉ p.measurements := by
    intro e
    rw [hms]
    simp
  have hlength : d.length = 37 := rfl
  obtain ⟨-, htaken, hfinish⟩ := hagain rfl rfl (by omega) hnone
  specialize hitems 3
  specialize hwhole hnone
  rw [hms] at hitems
  rw [hwellFormed] at hwhole htaken hfinish
  exact ⟨h, hms, hitems, hwhole, htaken, hfinish⟩

end Packet
end Telemetry
