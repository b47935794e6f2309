import Telemetry.Text.Utf8

/-!
# Cut — shortening a text without splitting a character

`Utf8.IsCut limit s t` says what shortening means: `t` leads `s`, fits into `limit` bytes, and no
longer leading part of `s` fits.  We prove:

* `isCut_cut`: `cut` shortens;
* `cut_of_fits`: the outcome does not depend on room that it does not use;
* `stepBack?_encode`: stepping back from an index of the bytes to a character boundary cuts there;
* `zero_notMem_encode`: only the character NUL has a zero byte.
-/

namespace Telemetry
namespace Utf8

/-! ## Bytes of a text -/

theorem toList_loop (bytes : ByteArray) (i : Nat) (taken : List UInt8) :
    ByteArray.toList.loop bytes i taken = taken.reverse ++ bytes.data.toList.drop i := by
  induction i, taken using ByteArray.toList.loop.induct bytes with
  | case1 i taken hi ih =>
      have hlength : i < bytes.data.toList.length := hi
      have hget : bytes.get! i = bytes.data.toList[i] := by
        simp only [ByteArray.get!, Array.getElem_toList]
        exact getElem!_pos bytes.data i hi
      rw [ByteArray.toList.loop, if_pos hi, ih, List.reverse_cons, List.append_assoc, hget,
        List.singleton_append, List.getElem_cons_drop]
  | case2 i taken hi =>
      have hlength : bytes.data.toList.length ≤ i := Nat.not_lt.1 hi
      rw [ByteArray.toList.loop, if_neg hi, List.drop_eq_nil_of_le hlength, List.append_nil]

theorem toList_toUTF8 (s : String) : s.toUTF8.toList = encode s :=
  toList_loop s.toUTF8 0 []

theorem encode_eq_flatMap (s : String) : encode s = s.toList.flatMap String.utf8EncodeChar := by
  have h : s.toByteArray = s.toList.utf8Encode := String.utf8Encode_toList.symm
  rw [encode, String.toUTF8_eq_toByteArray, h]
  simp [List.utf8Encode]

theorem encode_append (s t : String) : encode (s ++ t) = encode s ++ encode t := by
  simp [encode_eq_flatMap]

@[simp] theorem length_encode (s : String) : (encode s).length = s.utf8ByteSize := rfl

theorem utf8ByteSize_ofList_cons (c : Char) (cs : List Char) :
    (String.ofList (c :: cs)).utf8ByteSize = c.utf8Size + (String.ofList cs).utf8ByteSize := by
  have hsplit : String.ofList (c :: cs) = String.singleton c ++ String.ofList cs := by
    rw [String.singleton_eq_ofList, ← String.ofList_append]
    rfl
  rw [hsplit, String.utf8ByteSize_append, String.utf8ByteSize_singleton]

theorem ofNat_ne_zero {n : Nat} (hpos : 0 < n) (hlt : n < 256) : (0 : UInt8) ≠ UInt8.ofNat n := by
  intro h
  have htoNat : 0 = n % 256 := by simpa using congrArg UInt8.toNat h
  omega

theorem highByte_ne_zero (x : Nat) {k high : Nat} (hk : 0 < k) (hhigh : 0 < high)
    (hfits : k + high ≤ 256) : (0 : UInt8) ≠ UInt8.ofNat (x % k + high) := by
  have := Nat.mod_lt x hk
  exact ofNat_ne_zero (by omega) (by omega)

theorem eq_nul_of_zero_mem {c : Char} (h : 0 ∈ String.utf8EncodeChar c) : c = '\x00' := by
  unfold String.utf8EncodeChar at h
  dsimp only at h
  split at h
  · next hsmall =>
    have hzero : (0 : UInt8) = UInt8.ofNat c.val.toNat := by simpa using h
    by_cases hc : c.val.toNat = 0
    · exact Char.ext (UInt32.toNat_inj.1 hc)
    · exact absurd hzero (ofNat_ne_zero (by omega) (by omega))
  · -- every byte of a longer form has its high bit set
    split at h
    · simp only [List.mem_cons, List.not_mem_nil, or_false] at h
      rcases h with h | h <;>
        exact absurd h (highByte_ne_zero _ (by decide) (by decide) (by decide))
    · split at h <;> simp only [List.mem_cons, List.not_mem_nil, or_false] at h
      · rcases h with h | h | h <;>
          exact absurd h (highByte_ne_zero _ (by decide) (by decide) (by decide))
      · rcases h with h | h | h | h <;>
          exact absurd h (highByte_ne_zero _ (by decide) (by decide) (by decide))

theorem zero_notMem_encode {s : String} (h : '\x00' ∉ s.toList) : 0 ∉ encode s := by
  rw [encode_eq_flatMap, List.mem_flatMap]
  rintro ⟨c, hc, hzero⟩
  exact h (eq_nul_of_zero_mem hzero ▸ hc)

/-! ## Cutting -/

/-- `t` is the longest leading part of `s` that fits into `limit` bytes. -/
structure IsCut (limit : Nat) (s t : String) : Prop where
  leads : ∃ rest, s = t ++ rest
  fits : t.utf8ByteSize ≤ limit
  longest : ∀ u rest, s = u ++ rest → u.utf8ByteSize ≤ limit → ∃ more, t = u ++ more

theorem takeBytes_leads (limit : Nat) (cs : List Char) : takeBytes limit cs <+: cs := by
  induction cs generalizing limit with
  | nil =>
      simp [takeBytes]
  | cons c cs ih =>
      rw [takeBytes]
      split
      · exact (List.prefix_cons_inj c).2 (ih _)
      · exact List.nil_prefix

theorem takeBytes_fits (limit : Nat) (cs : List Char) :
    (String.ofList (takeBytes limit cs)).utf8ByteSize ≤ limit := by
  induction cs generalizing limit with
  | nil =>
      simp [takeBytes]
  | cons c cs ih =>
      rw [takeBytes]
      split
      · next hc =>
        have := ih (limit - c.utf8Size)
        rw [utf8ByteSize_ofList_cons]
        omega
      · simp

theorem le_takeBytes {limit : Nat} {us cs : List Char} (hlead : us <+: cs)
    (hfits : (String.ofList us).utf8ByteSize ≤ limit) : us <+: takeBytes limit cs := by
  induction us generalizing limit cs with
  | nil =>
      exact List.nil_prefix
  | cons u us ih =>
      obtain ⟨rest, rfl⟩ := hlead
      rw [utf8ByteSize_ofList_cons] at hfits
      rw [List.cons_append, takeBytes, if_pos (by omega)]
      exact (List.prefix_cons_inj u).2 (ih (List.prefix_append us rest) (by omega))

theorem isCut_cut (limit : Nat) (s : String) : IsCut limit s (cut limit s) where
  leads := by
    obtain ⟨rest, hrest⟩ := takeBytes_leads limit s.toList
    refine ⟨String.ofList rest, ?_⟩
    rw [cut, ← String.ofList_append, hrest, String.ofList_toList]
  fits := takeBytes_fits limit s.toList
  longest := by
    rintro u rest rfl hfits
    have hlead : u.toList <+: (u ++ rest).toList := by
      rw [String.toList_append]
      exact List.prefix_append _ _
    have hfits' : (String.ofList u.toList).utf8ByteSize ≤ limit := by rwa [String.ofList_toList]
    obtain ⟨more, hmore⟩ := le_takeBytes hlead hfits'
    refine ⟨String.ofList more, ?_⟩
    rw [cut, ← hmore, String.ofList_append, String.ofList_toList]

theorem IsCut.size_le {limit : Nat} {s t : String} (h : IsCut limit s t) :
    t.utf8ByteSize ≤ s.utf8ByteSize := by
  obtain ⟨rest, rfl⟩ := h.leads
  rw [String.utf8ByteSize_append]
  exact Nat.le_add_right _ _

/-- A text has one shortening to a limit. -/
theorem IsCut.unique {limit : Nat} {s t u : String} (ht : IsCut limit s t) (hu : IsCut limit s u) :
    t = u := by
  obtain ⟨rest, hrest⟩ := ht.leads
  obtain ⟨rest', hrest'⟩ := hu.leads
  obtain ⟨more, hmore⟩ := hu.longest t rest hrest ht.fits
  obtain ⟨more', hmore'⟩ := ht.longest u rest' hrest' hu.fits
  have hempty : more.utf8ByteSize = 0 := by
    have h := congrArg String.utf8ByteSize hmore
    have h' := congrArg String.utf8ByteSize hmore'
    rw [String.utf8ByteSize_append] at h h'
    omega
  rw [String.utf8ByteSize_eq_zero_iff.1 hempty, String.append_empty] at hmore
  exact hmore.symm

/-- A cut that fits into less room is the cut to that room as well. -/
theorem cut_of_fits {k limit : Nat} {s : String} (hk : k ≤ limit)
    (hfits : (cut limit s).utf8ByteSize ≤ k) : cut k s = cut limit s := by
  refine (isCut_cut k s).unique ⟨(isCut_cut limit s).leads, hfits, ?_⟩
  intro u rest hs hu
  exact (isCut_cut limit s).longest u rest hs (by omega)

theorem cut_eq_self {limit : Nat} {s : String} (h : s.utf8ByteSize ≤ limit) : cut limit s = s := by
  refine (isCut_cut limit s).unique ⟨⟨"", String.append_empty.symm⟩, h, ?_⟩
  intro u rest hs _
  exact ⟨rest, hs⟩

theorem nul_notMem_cut {limit : Nat} {s : String} (h : '\x00' ∉ s.toList) :
    '\x00' ∉ (cut limit s).toList := by
  rw [cut, String.toList_ofList]
  exact fun hmem => h ((takeBytes_leads limit s.toList).subset hmem)

/-! ## Character boundaries -/

/-- A character begins at an index of the bytes of a text, or the text ends there. -/
def isBoundary (bytes : List UInt8) (i : Nat) : Bool :=
  match bytes[i]? with
  | some b => decide b.IsUTF8FirstByte
  | none => i == bytes.length

/-- Step back from an index to a boundary; undefined if that leads past the front. -/
def stepBack? (bytes : List UInt8) : Nat → Option Nat
  | 0 => if isBoundary bytes 0 then some 0 else none
  | i + 1 => if isBoundary bytes (i + 1) then some (i + 1) else stepBack? bytes i

/-- The boundaries of a text are where its leading parts end. -/
theorem isBoundary_encode_iff {s : String} {i : Nat} :
    isBoundary (encode s) i = true ↔ ∃ t rest, s = t ++ rest ∧ t.utf8ByteSize = i := by
  have hvalid : String.Pos.Raw.IsValid s ⟨i⟩ ↔ ∃ t rest, s = t ++ rest ∧ t.utf8ByteSize = i := by
    simp [String.Pos.Raw.isValid_iff_exists_append, String.Pos.Raw.ext_iff, eq_comm]
  rw [← hvalid, String.Pos.Raw.isValid_iff_isUTF8FirstByte, isBoundary]
  by_cases hi : i < (encode s).length
  · have hlt : (⟨i⟩ : String.Pos.Raw) < s.rawEndPos := hi
    have hend : (⟨i⟩ : String.Pos.Raw) ≠ s.rawEndPos := by
      intro heq
      rw [heq] at hlt
      exact Nat.lt_irrefl _ hlt
    rw [List.getElem?_eq_getElem hi]
    simp [hend, hlt, String.getUTF8Byte, encode, ByteArray.getElem_eq_getElem_data]
  · have hge : ¬ (⟨i⟩ : String.Pos.Raw) < s.rawEndPos := hi
    rw [List.getElem?_eq_none (Nat.not_lt.1 hi)]
    simp [hge, String.Pos.Raw.ext_iff]

/-- The boundary that stepping back finds is the last one. -/
theorem stepBack?_eq_some {bytes : List UInt8} {i limit : Nat} (hboundary : isBoundary bytes i = true)
    (hle : i ≤ limit) (hlast : ∀ j, i < j → j ≤ limit → isBoundary bytes j = false) :
    stepBack? bytes limit = some i := by
  induction limit with
  | zero =>
      rw [Nat.le_zero.1 hle] at hboundary ⊢
      rw [stepBack?, if_pos hboundary]
  | succ limit ih =>
      rcases Nat.lt_or_eq_of_le hle with hlt | rfl
      · have hnone := hlast (limit + 1) hlt (Nat.le_refl _)
        rw [stepBack?, hnone, if_neg Bool.false_ne_true]
        exact ih (Nat.le_of_lt_succ hlt) fun j hij hj => hlast j hij (Nat.le_succ_of_le hj)
      · rw [stepBack?, if_pos hboundary]

theorem stepBack?_encode {s : String} {limit : Nat} :
    stepBack? (encode s) (min s.utf8ByteSize limit) = some (cut limit s).utf8ByteSize := by
  have hcut := isCut_cut limit s
  obtain ⟨rest, hrest⟩ := hcut.leads
  refine stepBack?_eq_some (isBoundary_encode_iff.2 ⟨_, rest, hrest, rfl⟩)
    (Nat.le_min.2 ⟨hcut.size_le, hcut.fits⟩) ?_
  intro j hj hle
  rw [Bool.eq_false_iff]
  intro hboundary
  -- a later boundary would end a longer part that fits
  obtain ⟨t, rest', hsplit, rfl⟩ := isBoundary_encode_iff.1 hboundary
  obtain ⟨more, hmore⟩ := hcut.longest t rest' hsplit (by omega)
  have hlonger := congrArg String.utf8ByteSize hmore
  rw [String.utf8ByteSize_append] at hlonger
  omega

/-- The bytes up to the boundary are those of the cut. -/
theorem take_encode_cut (limit : Nat) (s : String) :
    (encode s).take (cut limit s).utf8ByteSize = encode (cut limit s) := by
  obtain ⟨rest, hrest⟩ := (isCut_cut limit s).leads
  have hbytes := congrArg encode hrest
  rw [encode_append] at hbytes
  rw [hbytes, ← length_encode, List.take_left]

end Utf8
end Telemetry
