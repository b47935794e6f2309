import Telemetry.Packet.Builder
import Telemetry.Packet.Packet
import Telemetry.Proofs.Wire.Encoding

/-!
# Framing — what a builder seals, a receiver opens

A pushed measurement is taken exactly if its packed form leaves a byte below the limit
(`PacketBuilder.push_eq`), so a builder always `Holds` the packed forms of what it took, below its
limit.  A header that carries its own checksum and length is accepted (`Packet.parse_sealed`), and
the payload behind it is read back (`Measurement.unpackAll_encode`).  Together: a finished datagram
gives back what was pushed (`PacketBuilder.Holds.parse_finish`).
-/

namespace Telemetry

/-! ## Payloads -/

namespace Measurement

def encodeAll (v : ProtocolVersion) (ms : List Measurement) : List UInt8 :=
  ms.flatMap (encode v)

@[simp] theorem encodeAll_nil (v : ProtocolVersion) : encodeAll v [] = [] := rfl

@[simp] theorem encodeAll_cons (v : ProtocolVersion) (m : Measurement) (ms : List Measurement) :
    encodeAll v (m :: ms) = m.encode v ++ encodeAll v ms := rfl

@[simp] theorem encodeAll_append (v : ProtocolVersion) (ms ns : List Measurement) :
    encodeAll v (ms ++ ns) = encodeAll v ms ++ encodeAll v ns :=
  List.flatMap_append

@[simp] theorem unpackAll_nil (v : ProtocolVersion) : unpackAll v [] = [] := by
  rw [unpackAll, if_pos rfl]

theorem unpackAll_of_unpack {v : ProtocolVersion} {bytes : List UInt8} {m : Measurement} {n : Nat}
    (h : unpack v bytes = .ok (m, n)) :
    unpackAll v bytes = .ok m :: unpackAll v (bytes.drop n) := by
  rw [unpackAll, if_neg (two_le_of_unpack h).2]
  split
  · next e he =>
    rw [h] at he
    contradiction
  · next m' n' hm =>
    rw [h] at hm
    injection hm with hpair
    injection hpair with hm' hn'
    rw [hm', hn']

/-- Packed forms are read back in front of anything. -/
theorem unpackAll_encodeAll_append {v : ProtocolVersion} {ms : List Measurement}
    (hs : ∀ m ∈ ms, v.supports m.kind = true) (hnul : ∀ m ∈ ms, '\x00' ∉ m.argument.toList)
    (rest : List UInt8) :
    unpackAll v (encodeAll v ms ++ rest)
      = (ms.map fun m => .ok (m.carried v)) ++ unpackAll v rest := by
  induction ms with
  | nil =>
      rfl
  | cons m ms ih =>
      have hhead := unpack_encode (hs m List.mem_cons_self) (hnul m List.mem_cons_self)
        (encodeAll v ms ++ rest)
      have htail := ih (fun m' h => hs m' (List.mem_cons_of_mem m h))
        (fun m' h => hnul m' (List.mem_cons_of_mem m h))
      rw [encodeAll_cons, List.append_assoc, unpackAll_of_unpack hhead, ← m.length_encode v,
        List.drop_left, htail, List.map_cons, List.cons_append]

/-- A payload of packed forms is read back in full. -/
theorem unpackAll_encodeAll {v : ProtocolVersion} {ms : List Measurement}
    (hs : ∀ m ∈ ms, v.supports m.kind = true) (hnul : ∀ m ∈ ms, '\x00' ∉ m.argument.toList) :
    unpackAll v (encodeAll v ms) = ms.map fun m => .ok (m.carried v) := by
  have h := unpackAll_encodeAll_append hs hnul []
  rw [List.append_nil, unpackAll_nil, List.append_nil] at h
  exact h

end Measurement

/-! ## Headers -/

namespace PacketHeader

/-- A header is read back from its bytes, whatever follows. -/
theorem read?_bytes (h : PacketHeader) (rest : List UInt8) : read? (h.bytes ++ rest) = some h := by
  let length := Wire.bigEndian 2 h.length.toNat
  let checksum := Wire.bigEndian 4 h.checksum.toNat
  let timestamp := Wire.bigEndian 8 h.timestamp.toNat
  let fields := length ++ (checksum ++ (timestamp ++ rest))
  have hbytes : h.bytes ++ rest = h.version :: h.reserved :: fields := by
    simp [bytes, fields, length, checksum, timestamp]
  have hsize : headerSize ≤ (h.bytes ++ rest).length := by
    rw [List.length_append, length_bytes]
    omega
  have hlength : fields.take 2 = length := List.take_left' (Wire.length_bigEndian _ _)
  have hdrop : fields.drop 2 = checksum ++ (timestamp ++ rest) :=
    List.drop_left' (Wire.length_bigEndian _ _)
  have hchecksum : (fields.drop 2).take 4 = checksum := by
    rw [hdrop]
    exact List.take_left' (Wire.length_bigEndian _ _)
  have htimestamp : (fields.drop 6).take 8 = timestamp := by
    have hdrop' : fields.drop 6 = timestamp ++ rest := by
      rw [← List.drop_drop (i := 4) (j := 2), hdrop]
      exact List.drop_left' (Wire.length_bigEndian _ _)
    rw [hdrop']
    exact List.take_left' (Wire.length_bigEndian _ _)
  rw [hbytes] at hsize ⊢
  rw [read?, if_pos hsize, hlength, hchecksum, htimestamp,
    Wire.ofBigEndian_bigEndian h.length.toNat_lt, Wire.ofBigEndian_bigEndian h.checksum.toNat_lt,
    Wire.ofBigEndian_bigEndian h.timestamp.toNat_lt]
  simp

end PacketHeader

/-! ## The checksum of a datagram -/

/-- The checksum does not depend on the four bytes of its own field. -/
theorem datagramChecksum_split {front field rest : List UInt8}
    (hfront : front.length = checksumOffset) (hfield : field.length = 4) :
    datagramChecksum (front ++ (field ++ rest))
      = Checksum.crc32 (front ++ [0, 0, 0, 0] ++ rest) := by
  have hdrop : (front ++ (field ++ rest)).drop (checksumOffset + 4) = rest := by
    rw [← hfront, ← hfield, ← List.drop_drop, List.drop_left, List.drop_left]
  rw [datagramChecksum, hdrop, ← hfront, List.take_left]

theorem datagramChecksum_setChecksum (h : PacketHeader) (c : UInt32) (rest : List UInt8) :
    datagramChecksum ({ h with checksum := c }.bytes ++ rest)
      = datagramChecksum (h.bytes ++ rest) := by
  let front := [h.version, h.reserved] ++ Wire.bigEndian 2 h.length.toNat
  let behind := Wire.bigEndian 8 h.timestamp.toNat ++ rest
  have hset : { h with checksum := c }.bytes ++ rest
      = front ++ (Wire.bigEndian 4 c.toNat ++ behind) := by
    simp [PacketHeader.bytes, front, behind]
  have hself : h.bytes ++ rest = front ++ (Wire.bigEndian 4 h.checksum.toNat ++ behind) := by
    simp [PacketHeader.bytes, front, behind]
  have hfront : front.length = checksumOffset := by simp [front, checksumOffset]
  rw [hset, hself, datagramChecksum_split hfront (Wire.length_bigEndian _ _),
    datagramChecksum_split hfront (Wire.length_bigEndian _ _)]

/-- A header with the checksum and the length of its datagram passes every check. -/
theorem Packet.parse_sealed {h : PacketHeader} {v : ProtocolVersion} {payload : List UInt8}
    (hchecksum : h.checksum = datagramChecksum (h.bytes ++ payload))
    (hversion : h.version = v.toByte) (hlength : h.length.toNat = headerSize + payload.length) :
    parse (h.bytes ++ payload) = .ok ⟨h, v, payload⟩ := by
  have hpayload : (h.bytes ++ payload).drop headerSize = payload := by
    rw [← h.length_bytes, List.drop_left]
  have hsize : (h.bytes ++ payload).length = headerSize + payload.length := by
    rw [List.length_append, h.length_bytes]
  rw [parse, h.read?_bytes]
  dsimp only
  rw [if_neg (not_not_intro hchecksum), hversion, ProtocolVersion.ofByte_toByte]
  dsimp only
  rw [if_neg (not_not_intro (hlength.trans hsize.symm)), hpayload]

/-! ## Builders -/

namespace PacketBuilder

/-- A measurement is taken, in its complete form, exactly if that leaves a byte below the limit. -/
theorem push_eq (b : PacketBuilder) (m : Measurement) :
    b.push m =
      if b.size + m.packedSize .current < b.limit.bytes then
        (true, { b with payload := b.payload ++ m.encode .current, count := b.count + 1 })
      else (false, b) := by
  rw [push]
  dsimp only
  by_cases hroom : b.size + m.packedSize .current < b.limit.bytes
  · have hbuffer : m.packedSize .current
        < (List.replicate (b.limit.bytes - b.size) (0 : UInt8)).length := by
      rw [List.length_replicate]
      omega
    rw [if_neg (by omega), if_pos hroom,
      Measurement.pack_of_room (ProtocolVersion.supports_current m.kind) hbuffer]
    dsimp only
    rw [if_neg (not_not_intro rfl), ← m.length_encode .current, List.take_left]
  · rw [if_pos (by omega), if_neg hroom]

/-- The builder holds the packed forms of `ms`, in order, and stays below its limit. -/
structure Holds (b : PacketBuilder) (ms : List Measurement) : Prop where
  payload_eq : b.payload = Measurement.encodeAll .current ms
  count_eq : b.count = ms.length
  size_lt : b.size < b.limit.bytes

theorem holds_start (limit : PacketLimit) (timestamp : UInt64) :
    (start limit timestamp).Holds [] where
  payload_eq := rfl
  count_eq := rfl
  size_lt := by
    have := limit.least_le
    simp only [start, size, List.length_nil]
    omega

variable {b : PacketBuilder} {m : Measurement} {held ms : List Measurement}

/-- What one push does to the builder: it takes the measurement whole, or does nothing. -/
theorem Holds.push (h : b.Holds held) (m : Measurement) :
    ((b.push m).1 = true ∧ b.size + m.packedSize .current < b.limit.bytes
        ∧ (b.push m).2.Holds (held ++ [m])
        ∧ (b.push m).2.limit = b.limit ∧ (b.push m).2.timestamp = b.timestamp)
      ∨ ((b.push m).1 = false ∧ b.limit.bytes ≤ b.size + m.packedSize .current
        ∧ (b.push m).2 = b) := by
  rw [push_eq]
  by_cases hroom : b.size + m.packedSize .current < b.limit.bytes
  · rw [if_pos hroom]
    refine .inl ⟨rfl, hroom, ⟨?_, ?_, ?_⟩, rfl, rfl⟩
    · rw [h.payload_eq]
      simp
    · rw [h.count_eq, List.length_append, List.length_singleton]
    · simp only [size, List.length_append, Measurement.length_encode] at hroom ⊢
      omega
  · rw [if_neg hroom]
    exact .inr ⟨rfl, by omega, rfl⟩

/-! ## Runs of pushes -/

def pushAll (b : PacketBuilder) (ms : List Measurement) : PacketBuilder :=
  ms.foldl (fun b m => (b.push m).2) b

def taken (b : PacketBuilder) : List Measurement → List Measurement
  | [] => []
  | m :: ms => if (b.push m).1 then m :: (b.push m).2.taken ms else (b.push m).2.taken ms

theorem taken_subset (b : PacketBuilder) (ms : List Measurement) : b.taken ms ⊆ ms := by
  induction ms generalizing b with
  | nil =>
      simp [taken]
  | cons m ms ih =>
      rw [taken]
      split
      · exact List.cons_subset_cons m (ih _)
      · exact List.subset_cons_of_subset m (ih _)

/-- A run of pushes adds exactly the measurements that were taken. -/
theorem Holds.pushAll (h : b.Holds held) (ms : List Measurement) :
    (b.pushAll ms).Holds (held ++ b.taken ms)
      ∧ (b.pushAll ms).limit = b.limit ∧ (b.pushAll ms).timestamp = b.timestamp := by
  induction ms generalizing b held with
  | nil =>
      simpa [PacketBuilder.pushAll, taken] using h
  | cons m ms ih =>
      rw [taken]
      rcases h.push m with ⟨hyes, -, hnext, hlimit, htime⟩ | ⟨hno, -, hsame⟩
      · obtain ⟨hrun, hrunLimit, hrunTime⟩ := ih hnext
        rw [if_pos hyes, List.append_cons]
        exact ⟨hrun, hrunLimit.trans hlimit, hrunTime.trans htime⟩
      · rw [if_neg (by simp [hno]), hsame]
        have hrun : b.pushAll (m :: ms) = b.pushAll ms := congrArg (fun b => b.pushAll ms) hsame
        rw [hrun]
        exact ih h

/-! ## Finished datagrams -/

def sealedHeader (b : PacketBuilder) : PacketHeader :=
  let header : PacketHeader :=
    { version := ProtocolVersion.current.toByte
      reserved := 0
      length := b.size.toUInt16
      checksum := 0
      timestamp := b.timestamp }
  { header with checksum := datagramChecksum (header.bytes ++ b.payload) }

theorem finish_eq (b : PacketBuilder) : b.finish = b.sealedHeader.bytes ++ b.payload := rfl

@[simp] theorem length_finish (b : PacketBuilder) : b.finish.length = b.size := by
  rw [finish_eq, List.length_append, PacketHeader.length_bytes, size]

namespace Holds

/-- The length field holds every size below a packet limit. -/
theorem length_sealedHeader (h : b.Holds held) : b.sealedHeader.length.toNat = b.size := by
  have hlt := h.size_lt
  have hle := b.limit.le_greatest
  have hsize : b.size < 65536 := by
    unfold maxDatagram at hle
    omega
  exact Nat.mod_eq_of_lt hsize

theorem parse_finish (h : b.Holds held) :
    Packet.parse b.finish = .ok ⟨b.sealedHeader, .current, b.payload⟩ :=
  Packet.parse_sealed (datagramChecksum_setChecksum _ _ _).symm rfl h.length_sealedHeader

/-- A finished datagram gives back what the builder took. -/
theorem measurements_finish (h : b.Holds held) (hnul : ∀ m ∈ held, '\x00' ∉ m.argument.toList) :
    (Packet.mk b.sealedHeader .current b.payload).measurements
      = held.map fun m => .ok (m.carried .current) := by
  rw [Packet.measurements, h.payload_eq]
  exact Measurement.unpackAll_encodeAll (fun m _ => ProtocolVersion.supports_current m.kind) hnul

end Holds

/-- After any run of pushes, the next one is taken exactly if it leaves a byte below the limit and
changes nothing otherwise; the finished datagram is accepted and gives back, in order, what was
taken, each argument cut to 63 bytes. -/
theorem pushAll_finish_roundTrip (limit : PacketLimit) (timestamp : UInt64)
    (ms : List Measurement) :
    let b := (start limit timestamp).pushAll ms
    (∀ m, (b.push m).1 = true ↔ b.size + m.packedSize .current < limit.bytes)
      ∧ (∀ m, (b.push m).1 = false → (b.push m).2 = b)
      ∧ b.size < limit.bytes ∧ b.finish.length = b.size
      ∧ b.count = ((start limit timestamp).taken ms).length
      ∧ ((∀ m ∈ ms, '\x00' ∉ m.argument.toList) →
          ∃ p, Packet.parse b.finish = .ok p
            ∧ p.version = .current ∧ p.header.version = 2 ∧ p.timestamp = timestamp
            ∧ p.header.length.toNat = b.finish.length
            ∧ ∃ shorten : String → String, (∀ s, Utf8.IsCut 63 s (shorten s))
              ∧ p.measurements = ((start limit timestamp).taken ms).map fun m =>
                  .ok ⟨shorten m.argument, m.record⟩) := by
  intro b
  obtain ⟨hholds, hlimit, htime⟩ := (holds_start limit timestamp).pushAll ms
  rw [List.nil_append] at hholds
  change b.limit = limit at hlimit
  refine ⟨?_, ?_, ?_, length_finish b, hholds.count_eq, ?_⟩
  · intro m
    rw [← hlimit]
    rcases hholds.push m with ⟨hyes, hroom, -⟩ | ⟨hno, hfull, -⟩
    · exact ⟨fun _ => hroom, fun _ => hyes⟩
    · rw [hno]
      exact ⟨fun h => absurd h Bool.false_ne_true, fun h => absurd h (Nat.not_lt.2 hfull)⟩
  · intro m hrefused
    rcases hholds.push m with ⟨hyes, -⟩ | ⟨-, -, hsame⟩
    · rw [hrefused] at hyes
      contradiction
    · exact hsame
  · rw [← hlimit]
    exact hholds.size_lt
  · intro hnul
    have hheld : ∀ m ∈ (start limit timestamp).taken ms, '\x00' ∉ m.argument.toList :=
      fun m hm => hnul m (taken_subset _ _ hm)
    refine ⟨_, hholds.parse_finish, rfl, rfl, htime, ?_, Utf8.cut 63, Utf8.isCut_cut 63, ?_⟩
    · rw [length_finish]
      exact hholds.length_sealedHeader
    · exact hholds.measurements_finish hheld

/-- An argument of 80 bytes comes back with the 31 characters of two bytes that fit into 63. -/
theorem pushAll_finish_roundTrip_longArgument :
    let m : Measurement := ⟨String.ofList (List.replicate 40 'é'), .zeroed .load⟩
    let b := (start ⟨200, by decide, by decide⟩ 7).pushAll [m]
    '\x00' ∉ m.argument.toList ∧ b.count = 1
      ∧ ∃ p, Packet.parse b.finish = .ok p
        ∧ p.measurements = [.ok ⟨String.ofList (List.replicate 31 'é'), m.record⟩] := by
  intro m b
  have hnul : '\x00' ∉ m.argument.toList := by decide
  have htaken : (start ⟨200, by decide, by decide⟩ 7).taken [m] = [m] := by decide +kernel
  obtain ⟨-, -, -, -, hcount, hback⟩ :=
    pushAll_finish_roundTrip ⟨200, by decide, by decide⟩ 7 [m]
  obtain ⟨p, hparse, -, -, -, -, shorten, hcut, hmeasurements⟩ :=
    hback (List.forall_mem_singleton.2 hnul)
  rw [htaken] at hcount hmeasurements
  refine ⟨hnul, hcount, p, hparse, hmeasurements.trans ?_⟩
  have hkept : Utf8.cut 63 m.argument = String.ofList (List.replicate 31 'é') := by decide +kernel
  have hshort : shorten m.argument = String.ofList (List.replicate 31 'é') :=
    ((hcut m.argument).unique (Utf8.isCut_cut 63 m.argument)).trans hkept
  rw [List.map_singleton, hshort]

end PacketBuilder

end Telemetry
