import Mathlib.Data.List.Infix
import Telemetry.Wire.Reader
import Telemetry.Wire.Writer

/-!
# Fields — what a writer writes, a reader reads

The bytes of a value spell its raw integer, so a value is read back from them.  What a writer does to
its buffer is `Writer.Writes`: bytes at the offset, and nothing else; one writing after another is a
writing (`Writer.Writes.trans`).  Run lemmas say the same for lists of values:

* `Writer.writes_putWhileFits`: the values that are written are the `leading` ones, those that fit
  with a byte to spare;
* `Reader.getValues_append`: values are read back in front of anything.
-/

namespace Telemetry

/-! ## Numbers and values -/

namespace Wire

theorem ofBigEndian_append_singleton (bs : List UInt8) (b : UInt8) :
    ofBigEndian (bs ++ [b]) = ofBigEndian bs * 256 + b.toNat := by
  simp [ofBigEndian, List.foldl_append]

theorem ofBigEndian_bigEndian {size n : Nat} (h : n < Nat.pow 256 size) :
    ofBigEndian (bigEndian size n) = n := by
  induction size generalizing n with
  | zero =>
      have hn : n = 0 := Nat.lt_one_iff.1 h
      simp [bigEndian, ofBigEndian, hn]
  | succ size ih =>
      have hdiv : n / 256 < Nat.pow 256 size := by
        refine Nat.div_lt_of_lt_mul ?_
        rw [Nat.mul_comm]
        exact h
      rw [bigEndian, ofBigEndian_append_singleton, ih hdiv, UInt8.toNat_ofNat']
      omega

end Wire

namespace Value

theorem raw_lt (v : Value) : v.raw < Nat.pow 256 v.kind.size := by
  cases v with
  | counter64 n => exact n.toNat_lt
  | counter32 n => exact n.toNat_lt
  | percent p => exact p.tenths.toNat_lt
  | scaled s => exact s.hundredths.toNat_lt
  | fixed f => exact f.millionths.toUInt64.toNat_lt
  | byte b => exact b.toNat_lt

@[simp] theorem ofRaw_raw (v : Value) : ofRaw v.kind v.raw = v := by
  cases v <;> simp [ofRaw, raw, kind]

@[simp] theorem ofBytes_bytes (v : Value) : ofBytes v.kind v.bytes = v := by
  rw [ofBytes, bytes, Wire.ofBigEndian_bigEndian v.raw_lt, ofRaw_raw]

def allBytes (vs : List Value) : List UInt8 :=
  vs.flatMap bytes

@[simp] theorem allBytes_nil : allBytes [] = [] := rfl

@[simp] theorem allBytes_cons (v : Value) (vs : List Value) :
    allBytes (v :: vs) = v.bytes ++ allBytes vs := rfl

@[simp] theorem length_allBytes (vs : List Value) :
    (allBytes vs).length = FieldKind.totalSize (vs.map kind) := by
  induction vs with
  | nil =>
      rfl
  | cons v vs ih =>
      rw [allBytes_cons, List.length_append, length_bytes, ih]
      rfl

/-! ### Values that fit -/

/-- The leading values that fit into `room` bytes with one to spare behind each. -/
def leading (room : Nat) : List Value → List Value
  | [] => []
  | v :: vs => if v.bytes.length < room then v :: leading (room - v.bytes.length) vs else []

theorem leading_prefix (room : Nat) (vs : List Value) : leading room vs <+: vs := by
  induction vs generalizing room with
  | nil =>
      exact List.nil_prefix
  | cons v vs ih =>
      rw [leading]
      split
      · exact (List.prefix_cons_inj v).2 (ih _)
      · exact List.nil_prefix

/-- More room is used for more values. -/
theorem leading_mono {room room' : Nat} (h : room ≤ room') (vs : List Value) :
    leading room vs <+: leading room' vs := by
  induction vs generalizing room room' with
  | nil =>
      exact List.nil_prefix
  | cons v vs ih =>
      rw [leading, leading]
      split
      next hfits =>
          rw [if_pos (by omega)]
          exact (List.prefix_cons_inj v).2 (ih (by omega))
      next =>
          exact List.nil_prefix

theorem leading_of_room {room : Nat} {vs : List Value} (h : (allBytes vs).length < room) :
    leading room vs = vs := by
  induction vs generalizing room with
  | nil =>
      rfl
  | cons v vs ih =>
      rw [allBytes_cons, List.length_append] at h
      rw [leading, if_pos (by omega), ih (by omega)]

theorem length_leading_le (room : Nat) (vs : List Value) :
    (allBytes (leading room vs)).length ≤ room := by
  induction vs generalizing room with
  | nil =>
      exact Nat.zero_le room
  | cons v vs ih =>
      rw [leading]
      split
      next hfits =>
          have := ih (room - v.bytes.length)
          rw [allBytes_cons, List.length_append]
          omega
      next =>
          exact Nat.zero_le room

/-- Values that leave no byte to spare are not all written. -/
theorem length_leading_lt {room : Nat} {vs : List Value} (h : room ≤ (allBytes vs).length)
    (hpos : 0 < (allBytes vs).length) :
    (allBytes (leading room vs)).length < (allBytes vs).length := by
  induction vs generalizing room with
  | nil =>
      contradiction
  | cons v vs ih =>
      rw [allBytes_cons, List.length_append] at h
      rw [leading]
      split
      next hfits =>
          have hleft : room - v.bytes.length ≤ (allBytes vs).length := by omega
          have := ih hleft (by omega)
          rw [allBytes_cons, allBytes_cons, List.length_append, List.length_append]
          omega
      next =>
          exact hpos

end Value

/-! ## Runs of fields -/

namespace Wire

/-- From `w` to `w'`, `bytes` were written at the offset, and nothing else changed. -/
structure Writer.Writes (w : Writer) (bytes : List UInt8) (w' : Writer) : Prop where
  buffer : w'.buffer = w.buffer.take w.offset ++ bytes ++ w.buffer.drop (w.offset + bytes.length)
  offset : w'.offset = w.offset + bytes.length
  capacity : w'.capacity = w.capacity

namespace Writer.Writes

variable {w w₁ w₂ : Writer} {bytes more : List UInt8}

theorem refl (w : Writer) : w.Writes [] w where
  buffer := by simp
  offset := rfl
  capacity := rfl

/-- No writer grows its buffer: whatever is written stands within it. -/
theorem within (h : w.Writes bytes w₁) : bytes = [] ∨ w.offset + bytes.length ≤ w.buffer.length := by
  have hlength := congrArg List.length h.buffer
  have hbefore := w.length_buffer
  have hafter := w₁.length_buffer
  have hcapacity := h.capacity
  rw [List.length_append, List.length_append, List.length_take, List.length_drop] at hlength
  rw [← List.length_eq_zero_iff]
  omega

theorem take (h : w.Writes bytes w₁) (hwithin : w.offset ≤ w.buffer.length) :
    w₁.buffer.take w₁.offset = w.buffer.take w.offset ++ bytes := by
  have hlength : (w.buffer.take w.offset ++ bytes).length = w₁.offset := by
    rw [List.length_append, List.length_take_of_le hwithin, h.offset]
  rw [h.buffer, ← hlength, List.take_left]

theorem drop (h : w.Writes bytes w₁) (hwithin : w.offset ≤ w.buffer.length) (n : Nat) :
    w₁.buffer.drop (w₁.offset + n) = w.buffer.drop (w.offset + (bytes.length + n)) := by
  have hlength : (w.buffer.take w.offset ++ bytes).length = w₁.offset := by
    rw [List.length_append, List.length_take_of_le hwithin, h.offset]
  rw [h.buffer, ← hlength, List.drop_length_add_append, List.drop_drop, Nat.add_assoc]

theorem trans (h : w.Writes bytes w₁) (h' : w₁.Writes more w₂) : w.Writes (bytes ++ more) w₂ where
  buffer := by
    rcases h.within with rfl | hwithin
    · have hsame : w₁.buffer = w.buffer := by simp [h.buffer]
      have hoffset : w₁.offset = w.offset := h.offset
      rw [h'.buffer, hsame, hoffset, List.nil_append]
    · have hfront : w.offset ≤ w.buffer.length := by omega
      rw [h'.buffer, h.take hfront, h.drop hfront, List.length_append, List.append_assoc,
        List.append_assoc, List.append_assoc, List.append_assoc]
  offset := by
    rw [h'.offset, h.offset, List.length_append, Nat.add_assoc]
  capacity := h'.capacity.trans h.capacity

theorem getElem?_outside (h : w.Writes bytes w₁) {i : Nat} (hi : i < w.offset ∨ w₁.offset ≤ i) :
    w₁.buffer[i]? = w.buffer[i]? := by
  rcases h.within with rfl | hwithin
  · simp [h.buffer]
  have hfront : w.offset ≤ w.buffer.length := by omega
  rcases hi with hbefore | hbehind
  · have htaken : i < (w.buffer.take w.offset).length := by rwa [List.length_take_of_le hfront]
    rw [h.buffer, List.append_assoc, List.getElem?_append_left htaken, List.getElem?_take_of_lt hbefore]
  · have hrest := congrArg (·[i - w₁.offset]?) (h.drop hfront 0)
    have hoffset := h.offset
    simp only [List.getElem?_drop] at hrest
    rwa [Nat.add_zero, Nat.add_zero, ← hoffset, Nat.add_sub_cancel' hbehind] at hrest

end Writer.Writes

theorem Writer.put_of_room {w : Writer} {bytes : List UInt8}
    (h : w.offset + bytes.length < w.capacity) : ∃ w', w.put bytes = .ok w' ∧ w.Writes bytes w' := by
  rw [put, dif_pos h]
  exact ⟨_, rfl, rfl, rfl, rfl⟩

theorem Writer.put_of_no_room {w : Writer} {bytes : List UInt8}
    (h : ¬ w.offset + bytes.length < w.capacity) :
    w.put bytes = .error (.overflow w.offset bytes.length w.capacity) := by
  rw [put, dif_neg h]

/-- A run of fields writes the leading ones, up to the first that leaves no byte to spare. -/
theorem Writer.writes_putWhileFits (w : Writer) (vs : List Value) :
    w.Writes (Value.allBytes (Value.leading (w.capacity - w.offset) vs)) (w.putWhileFits vs) := by
  induction vs generalizing w with
  | nil =>
      exact .refl w
  | cons v vs ih =>
      by_cases hroom : w.offset + v.bytes.length < w.capacity
      · obtain ⟨w', hput, hw'⟩ := put_of_room hroom
        have hoffset := hw'.offset
        have hcapacity := hw'.capacity
        have hfits : v.bytes.length < w.capacity - w.offset := by omega
        have hrest : w.capacity - w.offset - v.bytes.length = w'.capacity - w'.offset := by omega
        rw [putWhileFits, putValue, hput, Value.leading, if_pos hfits, hrest, Value.allBytes_cons]
        exact hw'.trans (ih w')
      · have hfull : ¬ v.bytes.length < w.capacity - w.offset := by omega
        rw [putWhileFits, putValue, put_of_no_room hroom, Value.leading, if_neg hfull]
        exact .refl w

theorem Reader.getValue_append (front : List UInt8) (v : Value) (rest : List UInt8) :
    (Reader.mk (front ++ (v.bytes ++ rest)) front.length).getValue v.kind
      = .ok (v, ⟨front ++ (v.bytes ++ rest), front.length + v.kind.size⟩) := by
  have hbytes : ((front ++ (v.bytes ++ rest)).drop front.length).take v.kind.size = v.bytes := by
    rw [List.drop_left, ← Value.length_bytes, List.take_left]
  rw [getValue, hbytes, if_pos (Value.length_bytes v), Value.ofBytes_bytes]

/-- Values are read back from their bytes, whatever stands before and behind them. -/
theorem Reader.getValues_append (front : List UInt8) (vs : List Value) (rest : List UInt8) :
    (Reader.mk (front ++ (Value.allBytes vs ++ rest)) front.length).getValues (vs.map Value.kind)
      = .ok (vs, ⟨front ++ (Value.allBytes vs ++ rest),
          front.length + (Value.allBytes vs).length⟩) := by
  induction vs generalizing front with
  | nil =>
      rfl
  | cons v vs ih =>
      have hbuffer : front ++ (Value.allBytes (v :: vs) ++ rest)
          = (front ++ v.bytes) ++ (Value.allBytes vs ++ rest) := by
        simp [List.append_assoc]
      have hhead := getValue_append front v (Value.allBytes vs ++ rest)
      have htail := ih (front ++ v.bytes)
      rw [List.length_append, Value.length_bytes] at htail
      rw [← List.append_assoc front] at hhead
      rw [hbuffer, List.map_cons, getValues, hhead]
      dsimp only
      rw [htail]
      simp [Nat.add_assoc]

/-- Values that were written are read back from where they begin, up to where the writer stands. -/
theorem Writer.Writes.getValues {w w₁ : Writer} {vs : List Value}
    (h : w.Writes (Value.allBytes vs) w₁) :
    (Reader.mk w₁.buffer w.offset).getValues (vs.map Value.kind)
      = .ok (vs, ⟨w₁.buffer, w₁.offset⟩) := by
  have hoffset := h.offset
  rcases h.within with hnothing | hwithin
  · -- the offset may lie behind the buffer, but then there is nothing to read
    cases vs with
    | nil =>
        rw [hoffset]
        rfl
    | cons v vs =>
        have hpos := v.kind.size_pos
        have hlength := congrArg List.length hnothing
        rw [Value.allBytes_cons, List.length_append, Value.length_bytes, List.length_nil] at hlength
        omega
  · have hfront : (w.buffer.take w.offset).length = w.offset := List.length_take_of_le (by omega)
    have hread := Reader.getValues_append (w.buffer.take w.offset) vs
      (w.buffer.drop (w.offset + (Value.allBytes vs).length))
    rwa [← List.append_assoc, ← h.buffer, hfront, ← hoffset] at hread

end Wire
end Telemetry
