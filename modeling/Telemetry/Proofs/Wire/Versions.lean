import Telemetry.Proofs.Wire.Decoding

/-!
# Versions — the older protocol within the current one

A version carries a measurement whole if it knows its kind and has room for its argument
(`ProtocolVersion.Carries`).  Two versions that carry a measurement agree on it: they read it from the
same bytes (`Measurement.unpack_congr`), and pack it alike into any buffer, also into one that is too
short for it (`Measurement.pack_congr`).  The current version carries all that the older one carries, so
the older one is a restriction of it (`Measurement.older_restricts_current`).
-/

namespace Telemetry

/-- A version knows the kind of a measurement and has room for its argument. -/
structure ProtocolVersion.Carries (v : ProtocolVersion) (m : Measurement) : Prop where
  supports : v.supports m.kind = true
  fits : m.argument.utf8ByteSize ≤ v.maxArgument

namespace ProtocolVersion

variable {v w : ProtocolVersion} {m : Measurement}

theorem Carries.cut_eq (h : v.Carries m) : Utf8.cut v.maxArgument m.argument = m.argument :=
  Utf8.cut_eq_self h.fits

theorem older_carries_iff :
    older.Carries m ↔ m.kind.tag < 12 ∧ m.argument.utf8ByteSize ≤ 15 := by
  have hsupports : older.supports m.kind = true ↔ m.kind.tag < 12 := decide_eq_true_iff
  exact ⟨fun h => ⟨hsupports.1 h.supports, h.fits⟩, fun h => ⟨hsupports.2 h.1, h.2⟩⟩

/-- The current version carries what the older one carries. -/
theorem Carries.current (h : older.Carries m) : current.Carries m where
  supports := supports_current m.kind
  fits := Nat.le_trans h.fits (by decide)

end ProtocolVersion

namespace Measurement

variable {v w : ProtocolVersion} {m : Measurement} {n : Nat} {bytes : List UInt8}

/-! ## Versions that carry a measurement agree on it -/

theorem packedSize_congr (hv : v.Carries m) (hw : w.Carries m) :
    m.packedSize v = m.packedSize w := by
  rw [packedSize, packedSize, hv.cut_eq, hw.cut_eq]

theorem encode_congr (hv : v.Carries m) (hw : w.Carries m) : m.encode v = m.encode w := by
  rw [encode, encode, header, header, hv.cut_eq, hw.cut_eq]

/-- What is read from bytes is carried by the version that reads it. -/
theorem carries_of_unpack (h : unpack v bytes = .ok (m, n)) : v.Carries m :=
  have hread := unpack_eq_ok_iff.1 h
  ⟨hread.1, hread.2.2.1⟩

theorem unpack_congr (hv : v.Carries m) (hw : w.Carries m) :
    unpack v bytes = .ok (m, n) ↔ unpack w bytes = .ok (m, n) := by
  rw [unpack_eq_ok_iff, unpack_eq_ok_iff, hv.supports, hw.supports, packedSize_congr hv hw,
    encode_congr hv hw]
  simp only [hv.fits, hw.fits]

/-- Only the buffer cuts an argument for which the version has room. -/
theorem headerIn_of_carries (h : v.Carries m) (capacity : Nat) :
    m.headerIn v capacity = m.header (capacity - 2) := by
  have hcut := Utf8.isCut_cut (capacity - 2) m.argument
  have hfits := Nat.le_min.2 ⟨Nat.le_trans hcut.size_le h.fits, hcut.fits⟩
  rw [headerIn, header, header, Utf8.cut_of_fits (Nat.min_le_right _ _) hfits]

theorem pack_congr (hv : v.Carries m) (hw : w.Carries m) (buffer : List UInt8) :
    m.pack v buffer = m.pack w buffer := by
  have hwritten : m.written v buffer.length = m.written w buffer.length := by
    rw [written, written, hv.supports, hw.supports, headerIn_of_carries hv, headerIn_of_carries hw]
  rw [pack_eq, pack_eq, hwritten]

/-! ## Main statement -/

/-- The older version reads exactly what the current one reads, as far as it has the kind and room for
the argument; such measurements it packs as the current one does, into any buffer. -/
theorem older_restricts_current (m : Measurement) (n : Nat) (bytes buffer : List UInt8) :
    (unpack .older bytes = .ok (m, n) ↔
        unpack .current bytes = .ok (m, n) ∧ m.kind.tag < 12 ∧ m.argument.utf8ByteSize ≤ 15)
      ∧ (m.kind.tag < 12 → m.argument.utf8ByteSize ≤ 15 →
        m.pack .older buffer = m.pack .current buffer) := by
  refine ⟨?_, ?_⟩
  · rw [← ProtocolVersion.older_carries_iff]
    constructor
    · intro hread
      have hcarried := carries_of_unpack hread
      exact ⟨(unpack_congr hcarried hcarried.current).1 hread, hcarried⟩
    · rintro ⟨hread, hcarried⟩
      exact (unpack_congr hcarried hcarried.current).2 hread
  · intro htag hargument
    have hcarried := ProtocolVersion.older_carries_iff.2 ⟨htag, hargument⟩
    exact pack_congr hcarried hcarried.current buffer

end Measurement
end Telemetry
