import Telemetry.Proofs.Wire.Decoding

/-!
# Packing — into a buffer of any length

What packing writes is a leading part of a complete form, stays within the buffer, and grows with it
(`Measurement.written_prefix`, `length_written_le`, `length_written_mono`).  It is the complete form
of the measurement just when its length says so (`length_written_eq_iff`): where the argument is cut to
the buffer, fields may still fit behind it, but never all that is missing.

`Measurement.packInRange` writes by ranges, and is undefined if one of them passes the end of the
buffer or of the argument; none does (`Measurement.packInRange_eq`).
-/

namespace Telemetry

theorem StreamKind.payloadSize_pos (k : StreamKind) : 0 < k.payloadSize := by
  cases k <;> decide

/-! ## Writing by ranges -/

namespace Wire

/-- Lay bytes over a buffer from an offset on; undefined if they pass its end. -/
def overlay? (buffer : List UInt8) (offset : Nat) (bytes : List UInt8) : Option (List UInt8) :=
  if offset + bytes.length ≤ buffer.length then
    some (buffer.take offset ++ bytes ++ buffer.drop (offset + bytes.length))
  else none

/-- Write values up to the first that leaves no byte to spare, each over a range of the buffer. -/
def putInRange (buffer : List UInt8) (offset : Nat) : List Value → Option (Nat × List UInt8)
  | [] => some (offset, buffer)
  | v :: vs =>
      if offset + v.bytes.length ≥ buffer.length then some (offset, buffer)
      else
        (overlay? buffer offset v.bytes).bind fun buffer =>
          putInRange buffer (offset + v.bytes.length) vs

theorem overlay?_append (front rest bytes : List UInt8) (h : bytes.length ≤ rest.length) :
    overlay? (front ++ rest) front.length bytes
      = some (front ++ bytes ++ rest.drop bytes.length) := by
  have hwithin : front.length + bytes.length ≤ (front ++ rest).length := by
    rw [List.length_append]
    omega
  rw [overlay?, if_pos hwithin, List.take_left, List.drop_length_add_append]

theorem putInRange_eq (w : Writer) (vs : List Value) :
    putInRange w.buffer w.offset vs
      = some ((w.putWhileFits vs).offset, (w.putWhileFits vs).buffer) := by
  induction vs generalizing w with
  | nil =>
      rfl
  | cons v vs ih =>
      have hlength := w.length_buffer
      rw [putInRange, Writer.putWhileFits, Writer.putValue]
      by_cases hroom : w.offset + v.bytes.length < w.capacity
      · obtain ⟨w', hput, hbuffer, hoffset, -⟩ := Writer.put_of_room hroom
        have hwithin : w.offset + v.bytes.length ≤ w.buffer.length := by omega
        rw [if_neg (by omega), hput, overlay?, if_pos hwithin, Option.bind_some, ← hbuffer, ← hoffset]
        exact ih w'
      · rw [if_pos (by omega), Writer.put_of_no_room hroom]

end Wire

namespace Measurement

variable {v : ProtocolVersion} {m : Measurement} {capacity : Nat}

/-- Pack by ranges; without an answer if one of them does not lie within the buffer or the argument,
or if no character of the argument begins at or before the byte where it is to be cut. -/
def packInRange (v : ProtocolVersion) (buffer : List UInt8) (m : Measurement) :
    Option (Nat × List UInt8) :=
  if buffer.length < 2 then some (0, buffer)
  else if !v.supports m.kind then some (0, buffer)
  else do
    let bytes := Utf8.encode m.argument
    let limit := min v.maxArgument (buffer.length - 2)
    let length ← Utf8.stepBack? bytes (min bytes.length limit)
    let argument ← Wire.range? bytes 0 length
    let tagged ← Wire.overlay? buffer 0 [m.kind.tag]
    let named ← Wire.overlay? tagged 1 argument
    let ended ← Wire.overlay? named (1 + length) [0]
    Wire.putInRange ended (length + 2) m.record.values

/-- A header is laid over a buffer that has room for it, part by part. -/
theorem overlay?_header {buffer : List UInt8} {limit : Nat}
    (h : (m.header limit).length ≤ buffer.length) :
    ∃ tagged named, Wire.overlay? buffer 0 [m.kind.tag] = some tagged
      ∧ Wire.overlay? tagged 1 (Utf8.encode (Utf8.cut limit m.argument)) = some named
      ∧ Wire.overlay? named (1 + (Utf8.cut limit m.argument).utf8ByteSize) [0]
        = some (m.header limit ++ buffer.drop (m.header limit).length) := by
  let argument := Utf8.encode (Utf8.cut limit m.argument)
  have hroom : argument.length + 2 ≤ buffer.length := by rwa [length_header] at h
  have htag := Wire.overlay?_append [] buffer [m.kind.tag] (by simp; omega)
  have hargument := Wire.overlay?_append [m.kind.tag] (buffer.drop 1) argument (by simp; omega)
  have hend := Wire.overlay?_append ([m.kind.tag] ++ argument) ((buffer.drop 1).drop argument.length)
    [0] (by simp; omega)
  refine ⟨_, _, htag, hargument, ?_⟩
  have hform : [m.kind.tag] ++ argument ++ [0] = m.header limit := by simp [header, argument]
  have hoffset : ([m.kind.tag] ++ argument).length = 1 + argument.length := by simp [Nat.add_comm]
  have hrest : ((buffer.drop 1).drop argument.length).drop 1
      = buffer.drop (m.header limit).length := by
    rw [List.drop_drop, List.drop_drop, length_header]
    congr 1
    simp only [argument, Utf8.length_encode]
    omega
  rw [hform, hoffset, List.length_singleton, hrest] at hend
  exact hend

/-- No range passes the end of what it is taken from, and stepping back stays within the argument. -/
theorem packInRange_eq (v : ProtocolVersion) (buffer : List UInt8) (m : Measurement) :
    packInRange v buffer m = some (m.pack v buffer) := by
  rw [packInRange, pack]
  dsimp only
  by_cases hshort : buffer.length < 2
  · rw [if_pos hshort, if_pos hshort]
  rw [if_neg hshort, if_neg hshort]
  cases hs : v.supports m.kind with
  | false => rfl
  | true =>
      have hle := m.length_headerIn_le (v := v) (Nat.not_lt.1 hshort)
      rw [headerIn] at hle
      generalize min v.maxArgument (buffer.length - 2) = limit at hle ⊢
      obtain ⟨tagged, named, htag, hargument, hend⟩ := overlay?_header hle
      have hrange : Wire.range? (Utf8.encode m.argument) 0 (Utf8.cut limit m.argument).utf8ByteSize
          = some (Utf8.encode (Utf8.cut limit m.argument)) := by
        have hwithin : (Utf8.cut limit m.argument).utf8ByteSize ≤ (Utf8.encode m.argument).length :=
          (Utf8.isCut_cut limit m.argument).size_le
        rw [Wire.range?, if_pos ⟨Nat.zero_le _, hwithin⟩, List.drop_zero, Nat.sub_zero,
          Utf8.take_encode_cut]
      simp only [Bool.not_true, Bool.false_eq_true, if_false, Utf8.length_encode, Utf8.stepBack?_encode,
        Option.bind_eq_bind, Option.bind_some, hrange, htag, hargument, hend]
      rw [← length_header]
      exact Wire.putInRange_eq
        (Wire.Writer.start (m.header limit ++ buffer.drop (m.header limit).length)
          (m.header limit).length) m.record.values

/-! ## What is written -/

theorem length_written_le (v : ProtocolVersion) (capacity : Nat) (m : Measurement) :
    (m.written v capacity).length ≤ capacity := by
  rw [written]
  split
  next => exact Nat.zero_le capacity
  next hsome =>
      rw [not_or, Nat.not_lt] at hsome
      have hhead := m.length_headerIn_le (v := v) hsome.1
      have hfields := Value.length_leading_le (capacity - (m.headerIn v capacity).length)
        m.record.values
      dsimp only
      rw [List.length_append]
      omega

/-- What is written leads the complete form of the measurement with the argument as it was cut. -/
theorem written_prefix (v : ProtocolVersion) (capacity : Nat) (m : Measurement) :
    m.written v capacity <+:
      encode v ⟨Utf8.cut (min v.maxArgument (capacity - 2)) m.argument, m.record⟩ := by
  rw [written]
  split
  next => exact List.nil_prefix
  next =>
      have hfits := (Utf8.isCut_cut (min v.maxArgument (capacity - 2)) m.argument).fits
      -- what was cut for the buffer is not cut again for the version
      have hwhole : Utf8.cut v.maxArgument (Utf8.cut (min v.maxArgument (capacity - 2)) m.argument)
          = Utf8.cut (min v.maxArgument (capacity - 2)) m.argument :=
        Utf8.cut_eq_self (Nat.le_trans hfits (Nat.min_le_left _ _))
      have hheader : (Measurement.mk (Utf8.cut (min v.maxArgument (capacity - 2)) m.argument)
          m.record).header v.maxArgument = m.headerIn v capacity := by
        simp only [header, headerIn, kind, hwhole]
      rw [encode, hheader]
      exact (List.prefix_append_right_inj _).2 ((Value.leading_prefix _ _).flatMap _)

/-- Less than the complete form is written where there is no byte to spare behind it. -/
theorem length_written_lt (h : ¬ (v.supports m.kind = true ∧ m.packedSize v < capacity)) :
    (m.written v capacity).length < m.packedSize v := by
  have htwo := m.two_le_packedSize v
  have hwritten := length_written_le v capacity m
  by_cases hnone : capacity < 2 ∨ v.supports m.kind = false
  · rw [written, if_pos hnone, List.length_nil]
    omega
  have hsome := hnone
  rw [not_or, Nat.not_lt, Bool.not_eq_false] at hsome
  have hfull : capacity ≤ m.packedSize v := by
    by_contra hroom
    exact h ⟨hsome.2, Nat.not_le.1 hroom⟩
  have hpayload := m.kind.payloadSize_pos
  by_cases hcut : (Utf8.cut v.maxArgument m.argument).utf8ByteSize ≤ capacity - 2
  · -- the argument is as complete as it gets, so a field is missing
    have hheader : (m.headerIn v capacity).length
        = (Utf8.cut v.maxArgument m.argument).utf8ByteSize + 2 := by
      have hfits := (Utf8.isCut_cut v.maxArgument m.argument).fits
      rw [headerIn, length_header, Utf8.cut_of_fits (Nat.min_le_left _ _) (Nat.le_min.2 ⟨hfits, hcut⟩)]
    have hfields : (Value.allBytes (Value.leading (capacity - (m.headerIn v capacity).length)
        m.record.values)).length < m.kind.payloadSize := by
      rw [← length_payload]
      apply Value.length_leading_lt
      · rw [length_payload, hheader]
        unfold packedSize at hfull
        omega
      · rwa [length_payload]
    rw [written, if_neg hnone, packedSize]
    dsimp only
    rw [List.length_append]
    omega
  · -- the argument alone does not fit
    unfold packedSize
    omega

theorem length_written_eq_iff : (m.written v capacity).length = m.packedSize v ↔
    v.supports m.kind = true ∧ m.packedSize v < capacity := by
  constructor
  · intro hlength
    by_contra hnot
    exact Nat.ne_of_lt (length_written_lt hnot) hlength
  · rintro ⟨hs, hroom⟩
    rw [written_of_room hs hroom, length_encode]

/-- A longer buffer takes no less. -/
theorem length_written_mono {longer : Nat} (h : capacity ≤ longer) :
    (m.written v capacity).length ≤ (m.written v longer).length := by
  by_cases hnone : capacity < 2 ∨ v.supports m.kind = false
  · rw [written, if_pos hnone]
    exact Nat.zero_le _
  have hsome := hnone
  rw [not_or, Nat.not_lt] at hsome
  have hlonger : ¬ (longer < 2 ∨ v.supports m.kind = false) := by
    rw [not_or]
    exact ⟨by omega, hsome.2⟩
  let limit := min v.maxArgument (capacity - 2)
  let limit' := min v.maxArgument (longer - 2)
  by_cases hcut : (Utf8.cut limit' m.argument).utf8ByteSize ≤ limit
  · -- the same argument stands in front of at least as many fields
    have hheader : m.headerIn v longer = m.headerIn v capacity := by
      have hlimit : limit ≤ limit' := by omega
      rw [headerIn, headerIn, header, header, Utf8.cut_of_fits hlimit hcut]
    have hfields := Value.leading_mono (Nat.sub_le_sub_right h (m.headerIn v capacity).length)
      m.record.values
    rw [written, written, if_neg hnone, if_neg hlonger, hheader]
    dsimp only
    rw [List.length_append, List.length_append]
    exact Nat.add_le_add_left (hfields.flatMap _).length_le _
  · -- a longer argument fills the shorter buffer by itself
    have hwritten := length_written_le v capacity m
    have hfits := (Utf8.isCut_cut limit' m.argument).fits
    rw [written.eq_def v longer, if_neg hlonger]
    dsimp only
    rw [List.length_append, headerIn, length_header]
    simp only [limit, limit'] at hcut hfits
    omega

/-! ## Main statement -/

/-- Packing stays within a buffer of any length and changes nothing behind what it writes.  It writes
a leading part of the complete form of the measurement, with the argument cut to the version and to
the buffer at a character boundary, and no less if the buffer is longer.  The count of bytes tells
whether that is the complete form of the measurement itself, which takes a byte to spare. -/
theorem pack_bounded (v : ProtocolVersion) (m : Measurement) (buffer : List UInt8) :
    ∃ n after, packInRange v buffer m = some (n, after) ∧ m.pack v buffer = (n, after)
      ∧ n ≤ buffer.length ∧ after.length = buffer.length ∧ after.drop n = buffer.drop n
      ∧ (buffer.length < 2 ∨ v.supports m.kind = false → n = 0 ∧ after = buffer)
      ∧ (n = m.packedSize v ↔ v.supports m.kind = true ∧ m.packedSize v < buffer.length)
      ∧ (¬ (v.supports m.kind = true ∧ m.packedSize v < buffer.length) → n < m.packedSize v)
      ∧ (∃ argument, Utf8.IsCut (min v.maxArgument (buffer.length - 2)) m.argument argument
          ∧ after.take n <+: encode v ⟨argument, m.record⟩)
      ∧ ∀ longer : List UInt8, buffer.length ≤ longer.length → n ≤ (m.pack v longer).1 := by
  have hle := length_written_le v buffer.length m
  refine ⟨_, _, (packInRange_eq v buffer m).trans (congrArg some (pack_eq v buffer m)),
    pack_eq v buffer m, hle, ?_, ?_, ?_, length_written_eq_iff, length_written_lt,
    ⟨_, Utf8.isCut_cut _ _, ?_⟩, ?_⟩
  · rw [List.length_append, List.length_drop]
    omega
  · rw [List.drop_left]
  · intro hnone
    have hwritten : m.written v buffer.length = [] := if_pos hnone
    rw [hwritten]
    exact ⟨rfl, rfl⟩
  · rw [List.take_left]
    exact written_prefix v buffer.length m
  · intro longer hlonger
    rw [pack_eq v longer m]
    exact length_written_mono hlonger

/-- Three bytes are left where a character of four does not fit, and a field takes two of them. -/
example : pack .current (List.replicate 8 0xAA) ⟨"abc😀", .zeroed .cpu⟩
    = (7, [1, 97, 98, 99, 0, 0, 0, 0xAA]) := by
  decide +kernel

end Measurement
end Telemetry
