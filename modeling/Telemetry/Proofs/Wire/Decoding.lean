import Mathlib.Data.List.Induction
import Telemetry.Proofs.Wire.Encoding

/-!
# Decoding — unpacking accepts packed forms only

Whatever `Measurement.unpack` accepts begins with the packed form of the measurement that it gives,
and every packed form is accepted (`Measurement.unpack_eq_ok_iff`).  The proof follows the layers of
the form: numbers, fields, tag, argument.

`Measurement.unpackInRange` reads the same bytes by ranges, and is undefined if one of them passes
the end of what it is taken from; it never is (`Measurement.unpackInRange_eq`).
-/

namespace Telemetry

/-! ## Numbers and values -/

namespace Wire

theorem bigEndian_ofBigEndian (bs : List UInt8) : bigEndian bs.length (ofBigEndian bs) = bs := by
  induction bs using List.reverseRecOn with
  | nil =>
      rfl
  | append_singleton bs b ih =>
      have hb := b.toNat_lt
      have hfront : (ofBigEndian bs * 256 + b.toNat) / 256 = ofBigEndian bs := by omega
      have hlast : UInt8.ofNat (ofBigEndian bs * 256 + b.toNat) = b := by
        apply UInt8.toNat_inj.1
        rw [UInt8.toNat_ofNat']
        omega
      rw [List.length_append, List.length_singleton, ofBigEndian_append_singleton, bigEndian, hfront,
        hlast, ih]

theorem ofBigEndian_lt (bs : List UInt8) : ofBigEndian bs < Nat.pow 256 bs.length := by
  induction bs using List.reverseRecOn with
  | nil =>
      decide
  | append_singleton bs b ih =>
      have hb := b.toNat_lt
      have hpow : Nat.pow 256 (bs.length + 1) = Nat.pow 256 bs.length * 256 := rfl
      rw [List.length_append, List.length_singleton, ofBigEndian_append_singleton, hpow]
      omega

end Wire

namespace Value

theorem raw_ofRaw {k : FieldKind} {n : Nat} (h : n < Nat.pow 256 k.size) : (ofRaw k n).raw = n := by
  cases k with
  | counter64 => exact Nat.mod_eq_of_lt h
  | counter32 => exact Nat.mod_eq_of_lt h
  | percent => exact Nat.mod_eq_of_lt h
  | scaled => exact Nat.mod_eq_of_lt h
  | fixed =>
      have hwords : (n.toUInt64.toInt64).toUInt64 = n.toUInt64 := UInt64.toUInt64_toInt64 _
      simp only [ofRaw, raw, hwords]
      exact Nat.mod_eq_of_lt h
  | byte => exact Nat.mod_eq_of_lt h

theorem bytes_ofBytes {k : FieldKind} {bs : List UInt8} (h : bs.length = k.size) :
    (ofBytes k bs).bytes = bs := by
  have hraw : (ofBytes k bs).raw = Wire.ofBigEndian bs := raw_ofRaw (h ▸ Wire.ofBigEndian_lt bs)
  rw [bytes, hraw, ofBytes, kind_ofRaw, ← h, Wire.bigEndian_ofBigEndian]

end Value

/-! ## Fields -/

namespace Wire
namespace Reader

/-- A field that is read stands at the offset. -/
theorem of_getValue {r r' : Reader} {k : FieldKind} {v : Value} (h : r.getValue k = .ok (v, r')) :
    v.kind = k ∧ r'.buffer = r.buffer
      ∧ r.buffer.drop r.offset = v.bytes ++ r.buffer.drop r'.offset := by
  unfold getValue at h
  dsimp only at h
  split at h
  · next hlength =>
    cases h
    refine ⟨Value.kind_ofRaw k _, rfl, ?_⟩
    rw [Value.bytes_ofBytes hlength, ← List.drop_drop, List.take_append_drop]
  · contradiction

/-- Fields that are read stand one behind the other at the offset. -/
theorem of_getValues {ks : List FieldKind} {r r' : Reader} {vs : List Value}
    (h : r.getValues ks = .ok (vs, r')) :
    vs.map Value.kind = ks ∧ r'.buffer = r.buffer
      ∧ r.buffer.drop r.offset = Value.allBytes vs ++ r.buffer.drop r'.offset := by
  induction ks generalizing r vs with
  | nil =>
      cases h
      exact ⟨rfl, rfl, rfl⟩
  | cons k ks ih =>
      unfold getValues at h
      split at h
      · contradiction
      · next v r₁ hv =>
        split at h
        · contradiction
        · next vs' r₂ hvs =>
          cases h
          rcases of_getValue hv with ⟨hkind, hbuffer, hfirst⟩
          rcases ih hvs with ⟨hkinds, hbuffer', hrest⟩
          rw [hbuffer] at hrest hbuffer'
          refine ⟨?_, hbuffer', ?_⟩
          · rw [List.map_cons, hkind, hkinds]
          · rw [hfirst, hrest, Value.allBytes_cons, List.append_assoc]

end Reader

/-! ## Ranges -/

/-- The bytes from `start` up to `stop`, if both lie within them. -/
def range? (bytes : List UInt8) (start stop : Nat) : Option (List UInt8) :=
  if start ≤ stop ∧ stop ≤ bytes.length then some ((bytes.drop start).take (stop - start))
  else none

namespace Reader

/-- Take the range of a field, after the bytes left were counted. -/
def getValueInRange (r : Reader) (k : FieldKind) : Option (Except WireError (Value × Reader)) :=
  let available := r.buffer.length - r.offset
  if k.size > available then some (.error (.truncated k.size available))
  else
    (range? r.buffer r.offset (r.offset + k.size)).map fun bytes =>
      .ok (Value.ofBytes k bytes, { r with offset := r.offset + k.size })

def getValuesInRange (r : Reader) :
    List FieldKind → Option (Except WireError (List Value × Reader))
  | [] => some (.ok ([], r))
  | k :: ks =>
      match r.getValueInRange k with
      | none => none
      | some (.error e) => some (.error e)
      | some (.ok (v, r')) =>
          match r'.getValuesInRange ks with
          | none => none
          | some (.error e) => some (.error e)
          | some (.ok (vs, r'')) => some (.ok (v :: vs, r''))

theorem getValueInRange_eq (r : Reader) (k : FieldKind) :
    r.getValueInRange k = some (r.getValue k) := by
  have hpos := k.size_pos
  have hcount : ((r.buffer.drop r.offset).take k.size).length
      = min k.size (r.buffer.length - r.offset) := by
    rw [List.length_take, List.length_drop]
  unfold getValueInRange getValue
  dsimp only
  by_cases hshort : k.size > r.buffer.length - r.offset
  · rw [if_pos hshort, if_neg (by omega)]
  · have hwithin : r.offset ≤ r.offset + k.size ∧ r.offset + k.size ≤ r.buffer.length := by omega
    rw [if_neg hshort, if_pos (by omega), range?, if_pos hwithin, Nat.add_sub_cancel_left,
      Option.map_some]

theorem getValuesInRange_eq (r : Reader) (ks : List FieldKind) :
    r.getValuesInRange ks = some (r.getValues ks) := by
  induction ks generalizing r with
  | nil =>
      rfl
  | cons k ks ih =>
      rw [getValuesInRange, getValues, getValueInRange_eq]
      cases r.getValue k with
      | error e => rfl
      | ok field =>
          dsimp only
          rw [ih]
          cases field.2.getValues ks with
          | error e => rfl
          | ok rest => rfl

end Reader
end Wire

/-! ## Kinds and records -/

theorem StreamKind.tag_of_ofTag? {tag : UInt8} {k : StreamKind} (h : ofTag? tag = some k) :
    k.tag = tag := by
  have htable : ∀ i (hi : i < all.length), all[i].tag = UInt8.ofNat i := by decide
  rcases List.getElem?_eq_some_iff.1 h with ⟨hlt, rfl⟩
  rw [htable tag.toNat hlt, UInt8.ofNat_toNat]

theorem ProtocolVersion.of_kindOf {v : ProtocolVersion} {tag : UInt8} {k : StreamKind}
    (h : v.kindOf tag = .ok k) : k.tag = tag ∧ v.supports k = true := by
  unfold kindOf at h
  split at h
  · contradiction
  · next hbelow =>
    split at h
    · next hk =>
      cases h
      have htag := StreamKind.tag_of_ofTag? hk
      refine ⟨htag, ?_⟩
      rw [supports, htag, decide_eq_true_iff]
      exact UInt8.not_le.1 hbelow
    · contradiction

theorem Record.of_ofValues {k : StreamKind} {vs : List Value} {r : Record}
    (h : ofValues k vs = .ok r) : r.kind = k ∧ r.values = vs := by
  unfold ofValues at h
  split at h
  · split at h
    · cases h
      exact ⟨rfl, rfl⟩
    · contradiction
  · contradiction

namespace Measurement

/-! ## What unpacking accepts -/

/-- The terminator that is found ends an argument without NUL. -/
theorem of_idxOf?_take {bytes : List UInt8} {limit nul : Nat}
    (h : (bytes.take limit).idxOf? 0 = some nul) :
    nul < limit ∧ nul < bytes.length ∧ 0 ∉ bytes.take nul
      ∧ bytes = bytes.take nul ++ 0 :: bytes.drop (nul + 1) := by
  rcases List.idxOf?_eq_some_iff.1 h with ⟨hlt, hzero, hfirst⟩
  rw [List.length_take] at hlt
  have hlimit : nul < limit := by omega
  have hlength : nul < bytes.length := by omega
  rw [List.getElem_take] at hzero
  refine ⟨hlimit, hlength, ?_, ?_⟩
  · intro hmem
    rcases List.mem_iff_getElem.1 hmem with ⟨j, hj, hj0⟩
    rw [List.length_take] at hj
    rw [List.getElem_take] at hj0
    refine hfirst j (by omega) ?_
    rw [List.getElem_take]
    exact hj0
  · rw [← hzero, ← List.drop_eq_getElem_cons hlength, List.take_append_drop]

/-- Accepted bytes begin with the packed form of what they give, and that measurement is carried
whole. -/
theorem of_unpack {v : ProtocolVersion} {bytes : List UInt8} {m : Measurement} {n : Nat}
    (h : unpack v bytes = .ok (m, n)) :
    v.supports m.kind = true ∧ '\x00' ∉ m.argument.toList ∧ m.argument.utf8ByteSize ≤ v.maxArgument
      ∧ n = m.packedSize v ∧ ∃ rest, bytes = m.encode v ++ rest := by
  unfold unpack at h
  split at h
  · contradiction
  next tag tail =>
  split at h
  · contradiction
  next kind hkind =>
  dsimp only at h
  split at h
  · contradiction
  next nul hnul =>
  split at h
  · contradiction
  next argument hargument =>
  split at h
  · contradiction
  next values reader hvalues =>
  split at h
  · contradiction
  next record hrecord =>
  cases h
  rcases ProtocolVersion.of_kindOf hkind with ⟨rfl, hsupported⟩
  rcases Record.of_ofValues hrecord with ⟨rfl, rfl⟩
  rcases of_idxOf?_take hnul with ⟨hlimit, hlength, hnonzero, hsplit⟩
  have hencode : Utf8.encode argument = tail.take nul := Utf8.encode_of_decode hargument
  have hsize : argument.utf8ByteSize = nul := by
    rw [← Utf8.length_encode, hencode, List.length_take]
    exact Nat.min_eq_left (Nat.le_of_lt hlength)
  have hfits : argument.utf8ByteSize ≤ v.maxArgument := by omega
  have hcut : Utf8.cut v.maxArgument argument = argument := Utf8.cut_eq_self hfits
  have hfree : '\x00' ∉ argument.toList := by
    intro hmem
    apply hnonzero
    rw [← hencode, Utf8.encode_eq_flatMap]
    exact List.mem_flatMap.2 ⟨'\x00', hmem, by decide⟩
  -- the fields begin behind the tag and the terminator
  rcases Wire.Reader.of_getValues hvalues with ⟨-, -, hfields⟩
  have hoffset := Wire.Reader.offset_of_getValues hvalues
  rw [List.drop_succ_cons] at hfields
  refine ⟨hsupported, hfree, hfits, ?_, (record.kind.tag :: tail).drop reader.offset, ?_⟩
  · rw [hoffset, packedSize]
    simp only [hcut, hsize, kind, StreamKind.payloadSize]
    omega
  · rw [encode, header, List.append_assoc, ← hfields]
    simp only [hcut, hencode, kind, List.cons_append, List.append_assoc, List.nil_append]
    rw [← hsplit]

/-- Exactly the packed forms are accepted, in front of anything. -/
theorem unpack_eq_ok_iff {v : ProtocolVersion} {bytes : List UInt8} {m : Measurement} {n : Nat} :
    unpack v bytes = .ok (m, n) ↔
      v.supports m.kind = true ∧ '\x00' ∉ m.argument.toList
        ∧ m.argument.utf8ByteSize ≤ v.maxArgument
        ∧ n = m.packedSize v ∧ ∃ rest, bytes = m.encode v ++ rest := by
  constructor
  · exact of_unpack
  · rintro ⟨hsupported, hfree, hfits, rfl, rest, rfl⟩
    have hcarried : m.carried v = m := by
      rw [carried, Utf8.cut_eq_self hfits]
    have h := unpack_encode hsupported hfree rest
    rw [hcarried] at h
    exact h

/-! ## What unpacking looks at -/

/-- Unpack by ranges; without an answer if one of them does not lie within what it is taken from. -/
def unpackInRange (v : ProtocolVersion) (bytes : List UInt8) :
    Option (Except WireError (Measurement × Nat)) :=
  match bytes.head? with
  | none => some (.error (.truncated 1 0))
  | some tag =>
      match v.kindOf tag with
      | .error e => some (.error (.stream e))
      | .ok kind =>
          let limit := v.maxArgument + 1
          (Wire.range? bytes 1 (min bytes.length (1 + limit))).bind fun window =>
            match window.idxOf? 0 with
            | none => some (.error (.unterminatedArgument limit))
            | some nul =>
                (Wire.range? window 0 nul).bind fun argument =>
                  match Utf8.decode argument with
                  | .error fault => some (.error (.argumentNotText fault))
                  | .ok argument =>
                      ((Wire.Reader.mk bytes (nul + 2)).getValuesInRange kind.shape).map fun
                        | .error e => .error e
                        | .ok (values, reader) =>
                            match Record.ofValues kind values with
                            | .error e => .error (.stream e)
                            | .ok record => .ok (⟨argument, record⟩, reader.offset)

/-- No range passes the end of what it is taken from. -/
theorem unpackInRange_eq (v : ProtocolVersion) (bytes : List UInt8) :
    unpackInRange v bytes = some (unpack v bytes) := by
  cases bytes with
  | nil => rfl
  | cons tag tail =>
      have hstop : min (tail.length + 1) (1 + (v.maxArgument + 1)) - 1
          = min (v.maxArgument + 1) tail.length := by omega
      have hwindow : Wire.range? (tag :: tail) 1 (min (tag :: tail).length (1 + (v.maxArgument + 1)))
          = some (tail.take (v.maxArgument + 1)) := by
        rw [Wire.range?, if_pos (by rw [List.length_cons]; omega), List.drop_succ_cons,
          List.drop_zero, List.length_cons, hstop, ← List.take_eq_take_min]
      unfold unpackInRange unpack
      rw [List.head?_cons]
      dsimp only
      cases v.kindOf tag with
      | error e => rfl
      | ok kind =>
          dsimp only
          rw [hwindow, Option.bind_some]
          cases hnul : (tail.take (v.maxArgument + 1)).idxOf? 0 with
          | none => rfl
          | some nul =>
              have hlt := (List.idxOf?_eq_some_iff.1 hnul).1
              have hargument : Wire.range? (tail.take (v.maxArgument + 1)) 0 nul
                  = some (tail.take nul) := by
                rw [Wire.range?, if_pos ⟨Nat.zero_le nul, Nat.le_of_lt hlt⟩, List.drop_zero,
                  Nat.sub_zero, List.take_take]
                rw [List.length_take] at hlt
                rw [Nat.min_eq_left (by omega)]
              dsimp only
              rw [hargument, Option.bind_some]
              cases Utf8.decode (tail.take nul) with
              | error fault => rfl
              | ok argument =>
                  dsimp only
                  rw [Wire.Reader.getValuesInRange_eq]
                  exact Option.map_some _ _

/-! ## Main statements -/

/-- A packed form is read back from a buffer with a byte to spare, whatever follows it, with the
longest leading part of the argument that the version has room for. -/
theorem unpack_pack {v : ProtocolVersion} {m : Measurement} {buffer : List UInt8}
    (hs : v.supports m.kind = true) (hnul : '\x00' ∉ m.argument.toList)
    (hroom : m.packedSize v < buffer.length) (rest : List UInt8) :
    (m.pack v buffer).1 = m.packedSize v
      ∧ ∃ m', unpack v ((m.pack v buffer).2.take (m.packedSize v) ++ rest)
            = .ok (m', m.packedSize v)
          ∧ m'.record = m.record
          ∧ Utf8.IsCut v.maxArgument m.argument m'.argument
          ∧ (m.argument.utf8ByteSize ≤ v.maxArgument → m'.argument = m.argument) := by
  have hwritten : (m.encode v ++ buffer.drop (m.packedSize v)).take (m.packedSize v)
      = m.encode v := by
    rw [← m.length_encode v, List.take_left]
  rw [pack_of_room hs hroom]
  dsimp only
  rw [hwritten]
  exact ⟨rfl, m.carried v, unpack_encode hs hnul rest, rfl, Utf8.isCut_cut v.maxArgument m.argument,
    Utf8.cut_eq_self⟩

/-- An argument of nine characters of two bytes comes back with the seven that fit into 15. -/
theorem unpack_pack_longArgument :
    let m : Measurement := ⟨String.ofList (List.replicate 9 'é'), .zeroed .cpu⟩
    let buffer := List.replicate 27 (0xAA : UInt8)
    ProtocolVersion.older.supports m.kind = true ∧ '\x00' ∉ m.argument.toList
      ∧ m.packedSize .older < buffer.length ∧ (m.pack .older buffer).1 = 26
      ∧ unpack .older ((m.pack .older buffer).2.take 26 ++ [1, 2])
        = .ok (⟨String.ofList (List.replicate 7 'é'), m.record⟩, 26) := by
  intro m buffer
  have hs : ProtocolVersion.older.supports m.kind = true := rfl
  have hnul : '\x00' ∉ m.argument.toList := by decide
  have hkept : Utf8.cut 15 m.argument = String.ofList (List.replicate 7 'é') := by decide +kernel
  have hsize : m.packedSize .older = 26 := by decide +kernel
  have hroom : m.packedSize .older < buffer.length := by
    rw [hsize]
    decide
  rcases unpack_pack hs hnul hroom [1, 2] with ⟨hwritten, m', hback, hrecord, hcut, -⟩
  have hargument : m'.argument = String.ofList (List.replicate 7 'é') :=
    (hcut.unique (Utf8.isCut_cut 15 m.argument)).trans hkept
  have hwhole : m' = ⟨String.ofList (List.replicate 7 'é'), m.record⟩ := by
    rw [← hargument, ← hrecord]
  rw [hsize] at hwritten hback
  rw [hwhole] at hback
  exact ⟨hs, hnul, hroom, hwritten, hback⟩

/-- Bytes are refused with an error, or they begin with the one form of the measurement that they
give: packing it writes those bytes again, no other bytes give it, and no leading part of them is
accepted. -/
theorem unpack_canonical (v : ProtocolVersion) (bytes : List UInt8) :
    unpackInRange v bytes = some (unpack v bytes)
      ∧ ((∃ e, unpack v bytes = .error e)
        ∨ ∃ m n, unpack v bytes = .ok (m, n)
          ∧ v.supports m.kind = true
          ∧ '\x00' ∉ m.argument.toList ∧ m.argument.utf8ByteSize ≤ v.maxArgument
          ∧ n = m.packedSize v ∧ n ≤ bytes.length
          ∧ (∀ buffer : List UInt8, n < buffer.length →
              m.pack v buffer = (n, bytes.take n ++ buffer.drop n))
          ∧ (∀ bytes' n', unpack v bytes' = .ok (m, n') →
              n' = n ∧ bytes'.take n = bytes.take n)
          ∧ ∀ k < n, ∃ e, unpack v (bytes.take k) = .error e) := by
  refine ⟨unpackInRange_eq v bytes, ?_⟩
  cases hunpack : unpack v bytes with
  | error e => exact .inl ⟨e, rfl⟩
  | ok answer =>
      rcases answer with ⟨m, n⟩
      rcases unpack_eq_ok_iff.1 hunpack with ⟨hs, hnul, hfits, rfl, rest, rfl⟩
      have htake : ∀ rest : List UInt8, (m.encode v ++ rest).take (m.packedSize v) = m.encode v := by
        intro rest
        rw [← m.length_encode v, List.take_left]
      refine .inr ⟨m, _, rfl, hs, hnul, hfits, rfl, ?_, ?_, ?_, ?_⟩
      · rw [List.length_append, m.length_encode v]
        exact Nat.le_add_right _ _
      · intro buffer hroom
        rw [pack_of_room hs hroom, htake]
      · intro bytes' n' hunpack'
        rcases unpack_eq_ok_iff.1 hunpack' with ⟨-, -, -, rfl, rest', rfl⟩
        exact ⟨rfl, (htake rest').trans (htake rest).symm⟩
      · intro k hk
        cases hshort : unpack v ((m.encode v ++ rest).take k) with
        | error e => exact ⟨e, rfl⟩
        | ok answer =>
            -- what a leading part gives, the whole gives as well
            rcases answer with ⟨m', n'⟩
            rcases unpack_eq_ok_iff.1 hshort with ⟨hs', hnul', hfits', hn', rest', hform⟩
            have hlength : n' ≤ k := by
              have h := congrArg List.length hform
              rw [List.length_take, List.length_append, List.length_append, m'.length_encode v, ← hn']
                at h
              omega
            have hwhole : unpack v (m.encode v ++ rest) = .ok (m', n') := by
              refine unpack_eq_ok_iff.2 ⟨hs', hnul', hfits', hn',
                rest' ++ (m.encode v ++ rest).drop k, ?_⟩
              rw [← List.append_assoc, ← hform, List.take_append_drop]
            rw [hunpack] at hwhole
            cases hwhole
            exact absurd hk (Nat.not_lt.2 hlength)

end Measurement
end Telemetry
