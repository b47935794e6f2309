import Mathlib.Data.List.GetD
import Mathlib.Data.List.Nodup
import Telemetry.Packet.Packet
import Telemetry.Proofs.Packet.Polynomial

/-!
# Corruption — damaged datagrams are rejected

The residue of a datagram is the sum of its stored and its calculated checksum, and it is zero if
the datagram passes.  A bit that is flipped adds one power of `x` to the residue: a high one for a
bit that the checksum covers, and one of the first 32 for a bit of the checksum field itself.
Distinct bits add distinct powers, so the residue of a damaged datagram is not zero.

* `residue_xor_residue`: two residues differ by the powers of the differing bits.
* `Packet.parse_damaged`: what follows for `Packet.parse`.
-/

namespace Telemetry

/-! ## Differing bits -/

/-- Bit `i` of a byte string, each byte with its least significant bit first. -/
def bitAt (bytes : List UInt8) (i : Nat) : Bool :=
  (bytes.getD (i / 8) 0).toBitVec.getLsbD (i % 8)

/-- The positions of the bits in which two byte strings of one length differ. -/
def differingBits (d d' : List UInt8) : List Nat :=
  (List.range (8 * d.length)).filter fun i => bitAt d i != bitAt d' i

theorem bitAt_append_left {d : List UInt8} (e : List UInt8) {i : Nat} (hi : i < 8 * d.length) :
    bitAt (d ++ e) i = bitAt d i := by
  rw [bitAt, List.getD_append _ _ _ _ (by omega), bitAt]

theorem bitAt_append_right (d e : List UInt8) (i : Nat) :
    bitAt (d ++ e) (8 * d.length + i) = bitAt e i := by
  have hdiv : (8 * d.length + i) / 8 = d.length + i / 8 := by omega
  have hmod : (8 * d.length + i) % 8 = i % 8 := by omega
  rw [bitAt, hdiv, hmod, List.getD_append_right _ _ _ _ (by omega), Nat.add_sub_cancel_left, bitAt]

theorem differingBits_append {d d' : List UInt8} (h : d.length = d'.length) (e e' : List UInt8) :
    differingBits (d ++ e) (d' ++ e')
      = differingBits d d' ++ (differingBits e e').map (8 * d.length + ·) := by
  rw [differingBits, List.length_append, Nat.mul_add, List.range_add, List.filter_append,
    List.filter_map]
  congr 1
  · refine List.filter_congr fun i hi => ?_
    have hi := List.mem_range.1 hi
    rw [bitAt_append_left e hi, bitAt_append_left e' (h ▸ hi)]
  · congr 1
    refine List.filter_congr fun i _ => ?_
    rw [Function.comp_apply, bitAt_append_right, h, bitAt_append_right]

theorem differingBits_cons (b b' : UInt8) (d d' : List UInt8) :
    differingBits (b :: d) (b' :: d')
      = differingBits [b] [b'] ++ (differingBits d d').map (8 + ·) := by
  have hone : [b].length = [b'].length := rfl
  exact differingBits_append hone d d'

@[simp] theorem differingBits_self (d : List UInt8) : differingBits d d = [] := by
  simp [differingBits]

theorem nodup_differingBits (d d' : List UInt8) : (differingBits d d').Nodup :=
  List.nodup_range.filter _

theorem of_mem_differingBits {d d' : List UInt8} {i : Nat} (h : i ∈ differingBits d d') :
    i < 8 * d.length ∧ d[i / 8]? ≠ d'[i / 8]? := by
  obtain ⟨hi, hbit⟩ := List.mem_filter.1 h
  refine ⟨List.mem_range.1 hi, fun hbyte => ?_⟩
  rw [bitAt, bitAt, List.getD_eq_getElem?_getD, List.getD_eq_getElem?_getD, hbyte] at hbit
  simp at hbit

theorem differingBits_ne_nil {d d' : List UInt8} (hlength : d.length = d'.length) (hne : d ≠ d') :
    differingBits d d' ≠ [] := by
  intro hnil
  refine hne (List.ext_getElem hlength fun k hk hk' => UInt8.toBitVec_inj.1 ?_)
  refine BitVec.eq_of_getLsbD_eq fun j hj => ?_
  have hmem : 8 * k + j ∉ differingBits d d' := by rw [hnil]; exact List.not_mem_nil
  have hbit : bitAt d (8 * k + j) = bitAt d' (8 * k + j) := by
    by_contra h
    exact hmem (List.mem_filter.2 ⟨List.mem_range.2 (by omega), by simpa using h⟩)
  have hdiv : (8 * k + j) / 8 = k := by omega
  have hmod : (8 * k + j) % 8 = j := by omega
  rw [bitAt, bitAt, hdiv, hmod, List.getD_eq_getElem _ _ hk, List.getD_eq_getElem _ _ hk'] at hbit
  exact hbit

/-! ## The powers of differing bits -/

namespace Checksum

/-- The bits of a byte, moved up by `8 * n` places. -/
theorem byte_xor_byte (b b' : UInt8) {n : Nat} (hn : n < 4) :
    (b.toBitVec.setWidth 32 ^^^ b'.toBitVec.setWidth 32) <<< (8 * n)
      = sum ((differingBits [b] [b']).map (31 - 8 * n - ·)) := by
  have h : ∀ n : Fin 4, ∀ e : BitVec 8, (e.setWidth 32) <<< (8 * n.val)
      = sum (((List.range 8).filter fun j => e.getLsbD j).map (31 - 8 * n.val - ·)) := by
    decide +kernel
  have hbits : differingBits [b] [b']
      = (List.range 8).filter fun j => (b.toBitVec ^^^ b'.toBitVec).getLsbD j := by
    refine List.filter_congr fun j hj => ?_
    have hj : j < 8 := List.mem_range.1 hj
    rw [bitAt, bitAt, Nat.div_eq_of_lt hj, Nat.mod_eq_of_lt hj, BitVec.getLsbD_xor]
    simp
  rw [hbits, ← h ⟨n, hn⟩, BitVec.setWidth_xor]

/-- A register takes in bytes by a linear map.  If a byte with `n` bytes behind it adds the powers
`e n`, then two byte strings differ by these powers of their differing bits. -/
theorem Linear.foldl_xor_foldl {f : BitVec 32 → BitVec 32} (hf : Linear f) {g : UInt8 → BitVec 32}
    {e : Nat → Nat → Nat} {d d' : List UInt8} (hlength : d.length = d'.length)
    (hbyte : ∀ n < d.length, ∀ b b',
      f^[n] (g b ^^^ g b') = sum ((differingBits [b] [b']).map (e n)))
    (r r' : BitVec 32) :
    d.foldl (fun r b => f r ^^^ g b) r ^^^ d'.foldl (fun r b => f r ^^^ g b) r'
      = f^[d.length] (r ^^^ r')
        ^^^ sum ((differingBits d d').map fun i => e (d.length - 1 - i / 8) (i % 8)) := by
  -- from the front, as the first byte is the one with all others behind it
  induction d generalizing d' r r' with
  | nil =>
      rw [List.eq_nil_of_length_eq_zero hlength.symm, differingBits_self]
      exact BitVec.xor_zero.symm
  | cons b d ih =>
      obtain ⟨b', d', rfl⟩ := List.exists_cons_of_length_eq_add_one hlength.symm
      have hstep : (f r ^^^ g b) ^^^ (f r' ^^^ g b') = f (r ^^^ r') ^^^ (g b ^^^ g b') := by
        rw [hf.map_xor]
        ac_rfl
      have hfirst : (differingBits [b] [b']).map (e d.length)
          = (differingBits [b] [b']).map
              fun i => e ((b :: d).length - 1 - i / 8) (i % 8) := by
        refine List.map_congr_left fun i hi => ?_
        have hi : i < 8 := (of_mem_differingBits hi).1
        rw [Nat.div_eq_of_lt hi, Nat.mod_eq_of_lt hi]
        rfl
      have hrest : (differingBits d d').map (fun i => e (d.length - 1 - i / 8) (i % 8))
          = ((differingBits d d').map (8 + ·)).map
              fun i => e ((b :: d).length - 1 - i / 8) (i % 8) := by
        rw [List.map_map]
        refine List.map_congr_left fun i _ => ?_
        have hdiv : (8 + i) / 8 = i / 8 + 1 := by omega
        rw [Function.comp_apply, hdiv, Nat.add_mod_left, List.length_cons, Nat.add_sub_cancel,
          Nat.sub_sub, Nat.add_comm 1]
      calc (b :: d).foldl (fun r b => f r ^^^ g b) r
            ^^^ (b' :: d').foldl (fun r b => f r ^^^ g b) r'
          = f^[d.length] ((f r ^^^ g b) ^^^ (f r' ^^^ g b'))
            ^^^ sum ((differingBits d d').map fun i => e (d.length - 1 - i / 8) (i % 8)) :=
              ih (Nat.succ.inj hlength) (fun n hn => hbyte n (Nat.lt_succ_of_lt hn)) _ _
        _ = f^[d.length] (f (r ^^^ r')) ^^^ sum ((differingBits [b] [b']).map (e d.length))
            ^^^ sum ((differingBits d d').map fun i => e (d.length - 1 - i / 8) (i % 8)) := by
              rw [hstep, (hf.iterate _).map_xor, hbyte d.length (Nat.lt_succ_self _)]
        _ = f^[(b :: d).length] (r ^^^ r') ^^^ sum ((differingBits (b :: d) (b' :: d')).map
              fun i => e ((b :: d).length - 1 - i / 8) (i % 8)) := by
              rw [BitVec.xor_assoc, ← sum_append, hfirst, hrest, ← List.map_append,
                ← differingBits_cons]
              rfl

/-- Byte strings that are checked: the powers of the bits in which they differ. -/
theorem feedAll_xor_feedAll {d d' : List UInt8} (hlength : d.length = d'.length)
    (r : BitVec 32) :
    feedAll r d ^^^ feedAll r d' = sum ((differingBits d d').map (8 * d.length + 31 - ·)) := by
  have hiterate : ∀ n s, (shiftBits 8)^[n] s = shiftBits (8 * n) s := by
    intro n
    induction n with
    | zero =>
        exact fun _ => rfl
    | succ n ih =>
        intro s
        rw [Function.iterate_succ_apply, ih, ← shiftBits_add, Nat.mul_succ]
  have hfeed : feed = fun r b => shiftBits 8 r ^^^ shiftBits 8 (b.toBitVec.setWidth 32) := by
    funext r b
    exact (linear_shiftBits 8).map_xor _ _
  have hbyte : ∀ n < d.length, ∀ b b' : UInt8,
      (shiftBits 8)^[n] (shiftBits 8 (b.toBitVec.setWidth 32)
          ^^^ shiftBits 8 (b'.toBitVec.setWidth 32))
        = sum ((differingBits [b] [b']).map fun j => 8 * n + 8 + (31 - j)) := by
    intro n _ b b'
    have hplace := byte_xor_byte b b' (n := 0) (by decide)
    simp only [Nat.mul_zero, BitVec.shiftLeft_zero, Nat.sub_zero] at hplace
    rw [← (linear_shiftBits 8).map_xor, hplace, hiterate, ← shiftBits_add, shiftBits_sum,
      List.map_map]
    rfl
  rw [feedAll, feedAll, hfeed, (linear_shiftBits 8).foldl_xor_foldl hlength hbyte,
    BitVec.xor_self, ((linear_shiftBits 8).iterate _).map_zero, BitVec.zero_xor]
  congr 1
  refine List.map_congr_left fun i hi => ?_
  have := (of_mem_differingBits hi).1
  omega

/-- Bytes shifted into a register, the first one to the top. -/
def word (bytes : List UInt8) : BitVec 32 :=
  bytes.foldl (fun r b => r <<< 8 ^^^ b.toBitVec.setWidth 32) 0#32

theorem ofNat_mul_add (n : Nat) (b : UInt8) :
    BitVec.ofNat 32 (n * 256 + b.toNat) = BitVec.ofNat 32 n <<< 8 ^^^ b.toBitVec.setWidth 32 := by
  refine BitVec.eq_of_getLsbD_eq fun i hi => ?_
  have hsum : n * 256 + b.toNat = 2 ^ 8 * n + b.toNat := by omega
  rw [BitVec.getLsbD_xor, BitVec.getLsbD_shiftLeft, BitVec.getLsbD_setWidth, BitVec.getLsbD_ofNat,
    BitVec.getLsbD_ofNat, hsum, Nat.testBit_two_pow_mul_add _ b.toNat_lt]
  by_cases hlow : i < 8
  · simp [hi, hlow, BitVec.getLsbD]
  · simp [hi, hlow, BitVec.getLsbD_of_ge b.toBitVec i (by omega)]
    omega

theorem ofNat_ofBigEndian (bytes : List UInt8) :
    BitVec.ofNat 32 (Wire.ofBigEndian bytes) = word bytes := by
  have h : ∀ n, BitVec.ofNat 32 (bytes.foldl (fun n b => n * 256 + b.toNat) n)
      = bytes.foldl (fun (r : BitVec 32) b => r <<< 8 ^^^ b.toBitVec.setWidth 32)
          (BitVec.ofNat 32 n) := by
    induction bytes with
    | nil =>
        exact fun _ => rfl
    | cons b bytes ih =>
        intro n
        rw [List.foldl_cons, ih, ofNat_mul_add]
        rfl
  exact h 0

/-- Up to four bytes that are read as a word: the powers of the bits in which they differ. -/
theorem word_xor_word {d d' : List UInt8} (hlength : d.length = d'.length)
    (hfour : d.length ≤ 4) :
    word d ^^^ word d'
      = sum ((differingBits d d').map fun i => 31 - 8 * (d.length - 1 - i / 8) - i % 8) := by
  have hlinear : Linear fun r => r <<< 8 := ⟨fun _ _ => BitVec.shiftLeft_xor_distrib _ _ _⟩
  have hiterate : ∀ n s, (fun r : BitVec 32 => r <<< 8)^[n] s = s <<< (8 * n) := by
    intro n
    induction n with
    | zero =>
        exact fun s => (BitVec.shiftLeft_zero s).symm
    | succ n ih =>
        intro s
        rw [Function.iterate_succ_apply, ih, ← BitVec.shiftLeft_add, Nat.mul_succ, Nat.add_comm]
  have hbyte : ∀ n < d.length, ∀ b b' : UInt8,
      (fun r : BitVec 32 => r <<< 8)^[n] (b.toBitVec.setWidth 32 ^^^ b'.toBitVec.setWidth 32)
        = sum ((differingBits [b] [b']).map fun j => 31 - 8 * n - j) := by
    intro n hn b b'
    rw [hiterate, byte_xor_byte b b' (Nat.lt_of_lt_of_le hn hfour)]
  rw [word, word, hlinear.foldl_xor_foldl hlength hbyte, BitVec.xor_self,
    (hlinear.iterate _).map_zero, BitVec.zero_xor]

end Checksum

/-! ## Residues -/

def storedChecksum (datagram : List UInt8) : UInt32 :=
  (Wire.ofBigEndian ((datagram.drop checksumOffset).take 4)).toUInt32

/-- The sum of the stored and the calculated checksum of a datagram. -/
def residue (datagram : List UInt8) : BitVec 32 :=
  (storedChecksum datagram).toBitVec ^^^ (datagramChecksum datagram).toBitVec

theorem residue_eq_zero_iff {datagram : List UInt8} :
    residue datagram = 0#32 ↔ storedChecksum datagram = datagramChecksum datagram := by
  rw [residue, BitVec.xor_eq_zero_iff, UInt32.toBitVec_inj]

/-- The power that bit `i` of a datagram of `n` bytes adds to the residue. -/
def exponent (n i : Nat) : Nat :=
  if 32 ≤ i ∧ i < 64 then 31 - 8 * (7 - i / 8) - i % 8 else 8 * n + 31 - i

theorem exponent_of_covered {n i : Nat} (h : i < 32 ∨ 64 ≤ i) : exponent n i = 8 * n + 31 - i :=
  if_neg (by omega)

theorem exponent_of_field {n i : Nat} (h : i < 32) :
    exponent n (32 + i) = 31 - 8 * (4 - 1 - i / 8) - i % 8 := by
  rw [exponent, if_pos (by omega)]
  omega

theorem exponent_injective {n i j : Nat} (hi : i < 8 * n) (hj : j < 8 * n)
    (h : exponent n i = exponent n j) : i = j := by
  simp only [exponent] at h
  split at h <;> split at h <;> omega

section Split

variable {front field rest front' field' rest' : List UInt8}

theorem residue_split (hfront : front.length = 4) (hfield : field.length = 4) :
    residue (front ++ (field ++ rest))
      = Checksum.word field
        ^^^ ~~~Checksum.feedAll (BitVec.allOnes 32) (front ++ ([0, 0, 0, 0] ++ rest)) := by
  have hdrop : (front ++ (field ++ rest)).drop 4 = field ++ rest := by
    rw [← hfront, List.drop_left]
  have hdrop' : (front ++ (field ++ rest)).drop (4 + 4) = rest := by
    rw [← List.drop_drop, hdrop, ← hfield, List.drop_left]
  have htake : (front ++ (field ++ rest)).take 4 = front := by
    rw [← hfront, List.take_left]
  have hword : (field ++ rest).take 4 = field := by
    rw [← hfield, List.take_left]
  rw [residue, storedChecksum, datagramChecksum, checksumOffset, hdrop, hdrop', htake, hword,
    ← Checksum.ofNat_ofBigEndian, List.append_assoc]
  rfl

theorem differingBits_split (hfront : front.length = 4) (hfront' : front'.length = 4)
    (hfield : field.length = 4) (hfield' : field'.length = 4) :
    differingBits (front ++ (field ++ rest)) (front' ++ (field' ++ rest'))
      = differingBits front front' ++ ((differingBits field field').map (32 + ·)
        ++ (differingBits rest rest').map (64 + ·)) := by
  have hsixtyFour : ∀ i, 8 * 4 + (8 * 4 + i) = 64 + i := fun i => by omega
  rw [differingBits_append (hfront.trans hfront'.symm),
    differingBits_append (hfield.trans hfield'.symm), hfront, hfield, List.map_append,
    List.map_map]
  simp only [Function.comp_def, hsixtyFour]

/-- The bits of the checksum field add the first 32 powers. -/
theorem word_xor_word_field (n : Nat) (hfield : field.length = 4) (hfield' : field'.length = 4) :
    Checksum.word field ^^^ Checksum.word field'
      = Checksum.sum (((differingBits field field').map (32 + ·)).map (exponent n)) := by
  rw [Checksum.word_xor_word (hfield.trans hfield'.symm) (Nat.le_of_eq hfield), List.map_map]
  congr 1
  refine List.map_congr_left fun i hi => ?_
  have hi := (of_mem_differingBits hi).1
  rw [Function.comp_apply, exponent_of_field (by omega), hfield]

/-- The bits that the checksum covers add higher powers. -/
theorem feedAll_xor_feedAll_covered (r : BitVec 32) (hfront : front.length = 4)
    (hfront' : front'.length = 4) (hrest : rest.length = rest'.length) :
    Checksum.feedAll r (front ++ ([0, 0, 0, 0] ++ rest))
        ^^^ Checksum.feedAll r (front' ++ ([0, 0, 0, 0] ++ rest'))
      = Checksum.sum ((differingBits front front' ++ (differingBits rest rest').map (64 + ·)).map
        (exponent (8 + rest.length))) := by
  have hlength : (front ++ ([0, 0, 0, 0] ++ rest)).length = 8 + rest.length := by
    rw [List.length_append, List.length_append, hfront, ← Nat.add_assoc]
    rfl
  have hlength' : (front' ++ ([0, 0, 0, 0] ++ rest')).length = 8 + rest.length := by
    rw [List.length_append, List.length_append, hfront', hrest, ← Nat.add_assoc]
    rfl
  rw [Checksum.feedAll_xor_feedAll (hlength.trans hlength'.symm),
    differingBits_split hfront hfront' rfl rfl, differingBits_self, List.map_nil, List.nil_append,
    hlength]
  congr 1
  refine List.map_congr_left fun i hi => (exponent_of_covered ?_).symm
  rcases List.mem_append.1 hi with hi | hi
  · have := (of_mem_differingBits hi).1
    omega
  · obtain ⟨j, -, rfl⟩ := List.mem_map.1 hi
    omega

theorem exists_split {d : List UInt8} (hsize : 8 ≤ d.length) :
    ∃ front field rest : List UInt8,
      front.length = 4 ∧ field.length = 4 ∧ d = front ++ (field ++ rest) := by
  refine ⟨d.take 4, (d.drop 4).take 4, (d.drop 4).drop 4, ?_, ?_, ?_⟩
  · rw [List.length_take]
    omega
  · rw [List.length_take, List.length_drop]
    omega
  · rw [List.take_append_drop, List.take_append_drop]

end Split

/-- Two residues differ by the powers of the differing bits. -/
theorem residue_xor_residue {d d' : List UInt8} (hlength : d.length = d'.length)
    (hsize : 8 ≤ d.length) :
    residue d ^^^ residue d' = Checksum.sum ((differingBits d d').map (exponent d.length)) := by
  obtain ⟨front, field, rest, hfront, hfield, rfl⟩ := exists_split hsize
  obtain ⟨front', field', rest', hfront', hfield', rfl⟩ := exists_split (hlength ▸ hsize)
  have hn : (front ++ (field ++ rest)).length = 8 + rest.length := by
    rw [List.length_append, List.length_append, hfront, hfield, ← Nat.add_assoc]
  have hrest : rest.length = rest'.length := by
    rw [hn, List.length_append, List.length_append, hfront', hfield'] at hlength
    omega
  have hnot : ∀ u v s t : BitVec 32, (s ^^^ ~~~u) ^^^ (t ^^^ ~~~v) = (s ^^^ t) ^^^ (u ^^^ v) := by
    intro u v s t
    refine BitVec.eq_of_getLsbD_eq fun i hi => ?_
    simp only [BitVec.getLsbD_xor, BitVec.getLsbD_not, hi]
    cases u.getLsbD i <;> cases v.getLsbD i <;> cases s.getLsbD i <;> cases t.getLsbD i <;> rfl
  rw [residue_split hfront hfield, residue_split hfront' hfield', hnot,
    word_xor_word_field (8 + rest.length) hfield hfield',
    feedAll_xor_feedAll_covered _ hfront hfront' hrest, hn,
    differingBits_split hfront hfront' hfield hfield']
  simp only [List.map_append, Checksum.sum_append]
  ac_rfl

/-! ## Damage -/

def AgreeOutside (start : Nat) (d d' : List UInt8) : Prop :=
  ∀ i, i < start ∨ start + 4 ≤ i → d[i]? = d'[i]?

/-- Damage that keeps the length of a datagram. -/
inductive Damaged (d d' : List UInt8) : Prop where
  /-- One or two bits anywhere. -/
  | bits (h : (differingBits d d').length = 1 ∨ (differingBits d d').length = 2)
  /-- Four consecutive bytes in front of the checksum, or behind it. -/
  | burst (start : Nat) (hfield : start + 4 ≤ checksumOffset ∨ checksumOffset + 4 ≤ start)
      (h : AgreeOutside start d d')
  /-- The checksum itself. -/
  | field (h : AgreeOutside checksumOffset d d')

theorem AgreeOutside.window {start i : Nat} {d d' : List UInt8} (h : AgreeOutside start d d')
    (hi : i ∈ differingBits d d') : 8 * start ≤ i ∧ i < 8 * start + 32 := by
  obtain ⟨-, hbyte⟩ := of_mem_differingBits hi
  have hinside : ¬(i / 8 < start ∨ start + 4 ≤ i / 8) := fun hout => hbyte (h _ hout)
  omega

/-- The differing bits of a damaged datagram add powers that do not cancel. -/
theorem Damaged.sum_ne_zero {d d' : List UInt8} (h : Damaged d d') (hlength : d.length = d'.length)
    (hne : d ≠ d') (hsize : d.length ≤ 65535) :
    Checksum.sum ((differingBits d d').map (exponent d.length)) ≠ 0#32 := by
  have hnodup : ((differingBits d d').map (exponent d.length)).Nodup :=
    (nodup_differingBits d d').map_on fun i hi j hj =>
      exponent_injective (of_mem_differingBits hi).1 (of_mem_differingBits hj).1
  have hnil : (differingBits d d').map (exponent d.length) ≠ [] := fun hnil =>
    differingBits_ne_nil hlength hne (List.map_eq_nil_iff.1 hnil)
  cases h with
  | bits h =>
      rw [← List.length_map (f := exponent d.length)] at h
      refine Checksum.sum_ne_zero_of_two hnodup h (List.forall_mem_map.2 fun i hi => ?_)
      have := (of_mem_differingBits hi).1
      simp only [exponent, Checksum.period]
      split <;> omega
  | burst start hfield h =>
      refine Checksum.sum_ne_zero_of_window (m := 8 * d.length - 8 * start) hnodup hnil
        (List.forall_mem_map.2 fun i hi => ?_)
      have hi' := (of_mem_differingBits hi).1
      have hwindow := h.window hi
      simp only [checksumOffset] at hfield
      rw [exponent_of_covered (by omega)]
      omega
  | field h =>
      refine Checksum.sum_ne_zero_of_window (m := 0) hnodup hnil
        (List.forall_mem_map.2 fun i hi => ?_)
      have hwindow := h.window hi
      simp only [checksumOffset] at hwindow
      rw [exponent, if_pos (by omega)]
      omega

/-! ## Parsing -/

namespace PacketHeader

/-- What a header that is read says of its datagram. -/
theorem read?_eq {bytes : List UInt8} (h : headerSize ≤ bytes.length) :
    ∃ header, read? bytes = some header ∧ header.checksum = storedChecksum bytes
      ∧ header.length = (Wire.ofBigEndian ((bytes.drop 2).take 2)).toUInt16 := by
  match bytes, h with
  | [], h => simp [headerSize] at h
  | [_], h => simp [headerSize] at h
  | version :: reserved :: rest, h =>
      rw [read?, if_pos h]
      exact ⟨_, rfl, rfl, rfl⟩

end PacketHeader

namespace Packet

/-- A datagram whose two checksums differ is rejected for that. -/
theorem parse_of_residue {d : List UInt8} (hsize : headerSize ≤ d.length)
    (h : residue d ≠ 0#32) :
    parse d = .error (.checksumMismatch (storedChecksum d) (datagramChecksum d)) := by
  obtain ⟨header, hread, hchecksum, -⟩ := PacketHeader.read?_eq hsize
  rw [parse, hread]
  dsimp only
  rw [hchecksum, if_pos fun heq => h (residue_eq_zero_iff.2 heq)]

/-- What a datagram that passes says of itself. -/
theorem of_parse {d : List UInt8} {p : Packet} (h : parse d = .ok p) :
    headerSize ≤ d.length ∧ residue d = 0#32
      ∧ (Wire.ofBigEndian ((d.drop 2).take 2)).toUInt16.toNat = d.length := by
  have hsize : headerSize ≤ d.length := by
    by_contra hshort
    have hnone : PacketHeader.read? d = none := by
      unfold PacketHeader.read?
      split
      · exact if_neg hshort
      · rfl
    rw [parse, hnone] at h
    simp at h
  obtain ⟨header, hread, hchecksum, hlength⟩ := PacketHeader.read?_eq hsize
  rw [parse, hread] at h
  dsimp only at h
  split at h
  next => simp at h
  next hsum =>
    split at h
    next => simp at h
    next =>
      split at h
      next => simp at h
      next hdeclared =>
        refine ⟨hsize, residue_eq_zero_iff.2 ?_, ?_⟩
        · rw [← hchecksum]
          exact not_not.1 hsum
        · rw [← hlength]
          exact not_not.1 hdeclared

/-- Of two datagrams that pass, none is a proper prefix of the other. -/
theorem eq_of_begins {d d' : List UInt8} {p p' : Packet} (h : parse d = .ok p)
    (h' : parse d' = .ok p') (hbegins : d <+: d') : d = d' := by
  obtain ⟨hsize, -, hdeclared⟩ := of_parse h
  obtain ⟨-, -, hdeclared'⟩ := of_parse h'
  obtain ⟨rest, rfl⟩ := hbegins
  have hfield : ((d ++ rest).drop 2).take 2 = (d.drop 2).take 2 := by
    rw [headerSize] at hsize
    rw [List.drop_append_of_le_length (by omega),
      List.take_append_of_le_length (by rw [List.length_drop]; omega)]
  rw [hfield, hdeclared, List.length_append] at hdeclared'
  rw [List.eq_nil_of_length_eq_zero (l := rest) (by omega), List.append_nil]

/-- A damaged datagram is rejected by its checksum, and a cut or a lengthened one is rejected. -/
theorem parse_damaged {d d' : List UInt8} {p : Packet} (h : parse d = .ok p) (hne : d' ≠ d) :
    (d'.length = d.length → Damaged d d' →
        ∃ received calculated, parse d' = .error (.checksumMismatch received calculated))
      ∧ (d' <+: d ∨ d <+: d' → ∃ e, parse d' = .error e) := by
  obtain ⟨hsize, hresidue, hdeclared⟩ := of_parse h
  refine ⟨fun hlength hdamaged => ?_, fun hbegins => ?_⟩
  · have hsmall : d.length ≤ 65535 := by
      rw [← hdeclared]
      exact Nat.le_of_lt_succ (UInt16.toNat_lt _)
    have height : 8 ≤ d.length := by
      rw [headerSize] at hsize
      omega
    have hsum := residue_xor_residue hlength.symm height
    rw [hresidue, BitVec.zero_xor] at hsum
    refine ⟨_, _, parse_of_residue (hlength ▸ hsize) ?_⟩
    rw [hsum]
    exact hdamaged.sum_ne_zero hlength.symm hne.symm hsmall
  · cases h' : parse d' with
    | error e =>
        exact ⟨e, rfl⟩
    | ok p' =>
        rcases hbegins with hbegins | hbegins
        · exact absurd (eq_of_begins h' h hbegins) hne
        · exact absurd (eq_of_begins h h' hbegins) hne.symm

/-- An empty packet with one bit of its checksum and one of its timestamp flipped, and without its
last byte. -/
theorem parse_damaged_twoBits :
    let d : List UInt8 := [2, 0, 0, 16, 65, 120, 93, 79, 0, 0, 0, 0, 0, 0, 0, 7]
    let flipped : List UInt8 := [2, 0, 0, 16, 65, 120, 93, 78, 0, 0, 0, 0, 0, 0, 0, 5]
    parse d = .ok ⟨⟨2, 0, 16, 0x41785D4F, 7⟩, .current, []⟩
      ∧ differingBits d flipped = [56, 121]
      ∧ (∃ received calculated, parse flipped = .error (.checksumMismatch received calculated))
      ∧ ∃ e, parse d.dropLast = .error e := by
  intro d flipped
  have h : parse d = .ok ⟨⟨2, 0, 16, 0x41785D4F, 7⟩, .current, []⟩ := by cbv
  have hbits : differingBits d flipped = [56, 121] := by decide
  have hcut : d.dropLast <+: d := List.dropLast_prefix d
  refine ⟨h, hbits, ?_, ?_⟩
  · exact (parse_damaged h (by decide)).1 rfl (.bits (by rw [hbits]; decide))
  · exact (parse_damaged h (by decide)).2 (.inl hcut)

end Packet
end Telemetry
