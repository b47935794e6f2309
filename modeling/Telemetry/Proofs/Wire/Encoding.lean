import Telemetry.Proofs.Text.Cut
import Telemetry.Proofs.Wire.Fields
import Telemetry.Wire.Measurement

/-!
# Encoding — the complete packed form

`Measurement.encode` is the packed form without a buffer around it, and `Measurement.written` what
packing puts in front of a buffer of a given length (`pack_eq`); with a byte to spare that is the
complete form (`pack_of_room`).  Unpacking reads the form back in front of anything
(`unpack_encode`).  What comes back is the measurement as it is `carried`: its argument is cut to
what the version has room for.
-/

namespace Telemetry

/-! ## Kinds and records -/

theorem ProtocolVersion.supports_current (k : StreamKind) : current.supports k = true := by
  cases k <;> rfl

theorem ProtocolVersion.kindOf_tag {v : ProtocolVersion} {k : StreamKind}
    (h : v.supports k = true) : v.kindOf k.tag = .ok k := by
  have hlt : k.tag < v.sentinel := by simpa [supports] using h
  have hge : ¬ k.tag ≥ v.sentinel := UInt8.not_le.2 hlt
  rw [kindOf, if_neg hge, StreamKind.ofTag?_tag]

namespace Record

theorem mismatch?_map_kind (vs : List Value) : mismatch? (vs.map Value.kind) vs = none := by
  induction vs with
  | nil =>
      rfl
  | cons v vs ih =>
      simp [mismatch?, ih]

/-- A record is rebuilt from its values. -/
theorem ofValues_values (r : Record) : ofValues r.kind r.values = .ok r := by
  have hlen : r.values.length = r.kind.shape.length := by
    rw [← r.shaped, List.length_map]
  have hnone : mismatch? r.kind.shape r.values = none := by
    rw [← r.shaped]
    exact mismatch?_map_kind r.values
  rw [ofValues, dif_pos hlen]
  split
  · rfl
  · next h =>
    rw [hnone] at h
    contradiction

end Record

namespace Measurement

/-! ## The packed form -/

/-- The tag, the argument cut to the limit of the version, its terminator, and the fields. -/
def encode (v : ProtocolVersion) (m : Measurement) : List UInt8 :=
  m.header v.maxArgument ++ Value.allBytes m.record.values

/-- The measurement as a packed form carries it. -/
def carried (v : ProtocolVersion) (m : Measurement) : Measurement :=
  { m with argument := Utf8.cut v.maxArgument m.argument }

@[simp] theorem kind_carried (v : ProtocolVersion) (m : Measurement) :
    (m.carried v).kind = m.kind := rfl

@[simp] theorem length_header (limit : Nat) (m : Measurement) :
    (m.header limit).length = (Utf8.cut limit m.argument).utf8ByteSize + 2 := by
  simp [header]

theorem length_payload (m : Measurement) :
    (Value.allBytes m.record.values).length = m.kind.payloadSize := by
  rw [Value.length_allBytes, m.record.shaped]
  rfl

@[simp] theorem length_encode (v : ProtocolVersion) (m : Measurement) :
    (m.encode v).length = m.packedSize v := by
  rw [encode, List.length_append, length_header, length_payload, packedSize]
  omega

theorem two_le_packedSize (v : ProtocolVersion) (m : Measurement) : 2 ≤ m.packedSize v := by
  unfold packedSize
  omega

/-! ## Packing into a buffer -/

/-- The tag and as much of the argument as fits in front of its terminator. -/
def headerIn (v : ProtocolVersion) (capacity : Nat) (m : Measurement) : List UInt8 :=
  m.header (min v.maxArgument (capacity - 2))

/-- What packing writes into a buffer of `capacity` bytes: the header, and the leading fields that
fit behind it with a byte to spare. -/
def written (v : ProtocolVersion) (capacity : Nat) (m : Measurement) : List UInt8 :=
  if capacity < 2 ∨ v.supports m.kind = false then []
  else
    let head := m.headerIn v capacity
    head ++ Value.allBytes (Value.leading (capacity - head.length) m.record.values)

theorem length_headerIn_le {v : ProtocolVersion} {capacity : Nat} (h : 2 ≤ capacity)
    (m : Measurement) : (m.headerIn v capacity).length ≤ capacity := by
  have hfits := (Utf8.isCut_cut (min v.maxArgument (capacity - 2)) m.argument).fits
  rw [headerIn, length_header]
  omega

/-- Packing writes in front of a buffer and leaves the rest as it was. -/
theorem pack_eq (v : ProtocolVersion) (buffer : List UInt8) (m : Measurement) :
    m.pack v buffer = ((m.written v buffer.length).length,
      m.written v buffer.length ++ buffer.drop (m.written v buffer.length).length) := by
  by_cases hnone : buffer.length < 2 ∨ v.supports m.kind = false
  · have hwritten : m.written v buffer.length = [] := if_pos hnone
    rw [hwritten, pack]
    rcases hnone with hshort | hunsupported
    · simp [hshort]
    · simp [hunsupported]
  · rw [written, if_neg hnone]
    rw [not_or, Nat.not_lt, Bool.not_eq_false] at hnone
    obtain ⟨htwo, hsupported⟩ := hnone
    have hle := m.length_headerIn_le (v := v) htwo
    rw [pack]
    dsimp only
    rw [if_neg (by omega), hsupported, Bool.not_true, if_neg Bool.false_ne_true, ← headerIn]
    generalize m.headerIn v buffer.length = head at hle ⊢
    let w := Wire.Writer.start (head ++ buffer.drop head.length) head.length
    have hcapacity : w.capacity = buffer.length := by
      simp only [w, Wire.Writer.start, List.length_append, List.length_drop]
      omega
    obtain ⟨hbuffer, hoffset, -⟩ := w.writes_putWhileFits m.record.values
    rw [hbuffer, hoffset, hcapacity]
    simp only [w, Wire.Writer.start]
    rw [List.take_left, List.length_append, List.drop_append, List.drop_eq_nil_of_le (by omega),
      List.nil_append, List.drop_drop, Nat.add_sub_cancel' (Nat.le_add_right _ _)]

/-- With room for the complete form and a byte to spare, that form is written. -/
theorem written_of_room {v : ProtocolVersion} {m : Measurement} {capacity : Nat}
    (hs : v.supports m.kind = true) (hroom : m.packedSize v < capacity) :
    m.written v capacity = m.encode v := by
  have htwo := m.two_le_packedSize v
  have hsize := m.length_encode v
  have hcut : (Utf8.cut v.maxArgument m.argument).utf8ByteSize ≤ capacity - 2 := by
    unfold packedSize at hroom
    omega
  have hfits := (Utf8.isCut_cut v.maxArgument m.argument).fits
  have hheader : m.headerIn v capacity = m.header v.maxArgument := by
    simp only [headerIn, header]
    rw [Utf8.cut_of_fits (Nat.min_le_left _ _) (Nat.le_min.2 ⟨hfits, hcut⟩)]
  rw [encode, List.length_append] at hsize
  have hsupported : ¬ (capacity < 2 ∨ v.supports m.kind = false) := by
    rw [hs]
    simp
    omega
  rw [written, if_neg hsupported]
  dsimp only
  rw [hheader, Value.leading_of_room (by omega), encode]

/-- With room for the complete form and a byte to spare, packing writes exactly that form. -/
theorem pack_of_room {v : ProtocolVersion} {m : Measurement} {buffer : List UInt8}
    (hs : v.supports m.kind = true) (hroom : m.packedSize v < buffer.length) :
    m.pack v buffer = (m.packedSize v, m.encode v ++ buffer.drop (m.packedSize v)) := by
  rw [pack_eq, written_of_room hs hroom, length_encode]

/-! ## Reading the packed form -/

/-- The terminator is found behind an argument without NUL. -/
theorem idxOf?_take_terminator {argument : List UInt8} {limit : Nat} (hnul : 0 ∉ argument)
    (hfits : argument.length ≤ limit) (rest : List UInt8) :
    ((argument ++ 0 :: rest).take (limit + 1)).idxOf? 0 = some argument.length := by
  obtain ⟨room, rfl⟩ := Nat.exists_eq_add_of_le hfits
  have htake : (argument ++ 0 :: rest).take (argument.length + room + 1)
      = argument ++ 0 :: rest.take room := by
    rw [Nat.add_assoc, List.take_length_add_append, List.take_succ_cons]
  have hnone : argument.findIdx? (· == 0) = none := by
    rw [List.findIdx?_eq_none_iff]
    intro b hb
    exact beq_false_of_ne fun h => hnul (h ▸ hb)
  rw [htake, List.idxOf?, List.findIdx?_append, hnone]
  simp [List.findIdx?_cons]

/-- A packed form is read back in front of anything, and tells how long it is. -/
theorem unpack_encode {v : ProtocolVersion} {m : Measurement} (hs : v.supports m.kind = true)
    (hnul : '\x00' ∉ m.argument.toList) (rest : List UInt8) :
    unpack v (m.encode v ++ rest) = .ok (m.carried v, m.packedSize v) := by
  let argument := Utf8.cut v.maxArgument m.argument
  let fields := Value.allBytes m.record.values ++ rest
  have hform : m.header v.maxArgument ++ fields
      = m.kind.tag :: (Utf8.encode argument ++ 0 :: fields) := by
    simp [header, argument]
  have hterminator : ((Utf8.encode argument ++ 0 :: fields).take (v.maxArgument + 1)).idxOf? 0
      = some (Utf8.encode argument).length :=
    idxOf?_take_terminator (Utf8.zero_notMem_encode (Utf8.nul_notMem_cut hnul))
      (Utf8.isCut_cut v.maxArgument m.argument).fits fields
  have hfields : (Wire.Reader.mk (m.header v.maxArgument ++ fields)
        ((Utf8.encode argument).length + 2)).getValues m.kind.shape
      = .ok (m.record.values, ⟨m.header v.maxArgument ++ fields, m.packedSize v⟩) := by
    have h := Wire.Reader.getValues_append (m.header v.maxArgument) m.record.values rest
    rw [m.record.shaped, ← List.length_append, ← encode, length_encode, length_header] at h
    exact h
  rw [encode, List.append_assoc, hform, unpack, ProtocolVersion.kindOf_tag hs]
  dsimp only
  rw [hterminator]
  dsimp only
  rw [List.take_left, Utf8.decode_encode]
  dsimp only
  rw [← hform, hfields]
  dsimp only
  have hrecord : Record.ofValues m.kind m.record.values = .ok m.record :=
    Record.ofValues_values m.record
  rw [hrecord]
  rfl

end Measurement
end Telemetry
