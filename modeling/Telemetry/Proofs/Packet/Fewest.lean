import Mathlib.Algebra.GroupWithZero.Nat
import Mathlib.Order.Bounds.Defs
import Telemetry.Proofs.Packet.RollOver

/-!
# Fewest — how few packets hold a list of measurements

A list is `Grouped` when its measurements stand in groups, each of which fits a packet; what fits no
packet stands in no group and parts its neighbours.  `buildPackets` makes one datagram for each group
of such a grouping, and no grouping has fewer groups (`isLeast_length_buildPackets`).  Where every
measurement fits a packet, this is the least number of parts into which the list can be cut; a
measurement that fits no packet closes the packet at hand, which can cost one
(`not_isLeast_length_buildPackets`).
-/

namespace Telemetry

namespace PacketLimit

def admitsAll (limit : PacketLimit) (ms : List Measurement) : Prop :=
  headerSize + (ms.map (Measurement.packedSize .current)).sum < limit.bytes

/-- Groups of measurements that stand one behind another in a list. -/
inductive Grouped (limit : PacketLimit) : List Measurement → List (List Measurement) → Prop where
  | nil : Grouped limit [] []
  /-- what fits no packet stands in no group -/
  | skip {m : Measurement} {ms : List Measurement} {groups : List (List Measurement)}
      (hm : ¬limit.admits m = true) (h : Grouped limit ms groups) : Grouped limit (m :: ms) groups
  | group {g ms : List Measurement} {groups : List (List Measurement)}
      (hg : limit.admitsAll g) (h : Grouped limit ms groups) : Grouped limit (g ++ ms) (g :: groups)

variable {limit : PacketLimit} {m : Measurement} {g ms : List Measurement}
  {groups : List (List Measurement)}

theorem admits_of_admitsAll_cons (h : limit.admitsAll (m :: g)) : limit.admits m = true := by
  simp only [admitsAll, List.map_cons, List.sum_cons] at h
  exact decide_eq_true (by omega)

theorem admitsAll_of_cons (h : limit.admitsAll (m :: g)) : limit.admitsAll g := by
  simp only [admitsAll, List.map_cons, List.sum_cons] at h ⊢
  omega

namespace Grouped

/-- The groups hold what fits a packet, in order. -/
theorem flatten_eq (h : limit.Grouped ms groups) : groups.flatten = ms.filter limit.admits := by
  induction h with
  | nil => rfl
  | skip hm _ ih => rw [List.filter_cons_of_neg hm, ih]
  | @group g ms groups hg _ ih =>
      have hall : ∀ m ∈ g, limit.admits m = true := by
        intro m hm
        obtain ⟨before, after, rfl⟩ := List.append_of_mem hm
        simp only [admitsAll, List.map_append, List.map_cons, List.sum_append, List.sum_cons] at hg
        exact decide_eq_true (by omega)
      rw [List.flatten_cons, ih, List.filter_append, List.filter_eq_self.2 hall]

theorem admitsAll (h : limit.Grouped ms groups) : ∀ g ∈ groups, limit.admitsAll g := by
  induction h with
  | nil => simp
  | skip _ _ ih => exact ih
  | group hg _ ih => exact List.forall_mem_cons.2 ⟨hg, ih⟩

/-- Any cut of a list into parts that each fit a packet is a grouping. -/
theorem of_parts (h : ∀ g ∈ groups, limit.admitsAll g) : limit.Grouped groups.flatten groups := by
  induction groups with
  | nil => exact .nil
  | cons g groups ih =>
      rw [List.forall_mem_cons] at h
      exact .group h.1 (ih h.2)

end Grouped
end PacketLimit

/-! ## What a builder does with a group -/

namespace PacketBuilder

variable {limit : PacketLimit} {b : PacketBuilder} {held g : List Measurement}
  {groups : List (List Measurement)}

theorem Holds.size_eq (h : b.Holds held) :
    b.size = headerSize + (held.map (Measurement.packedSize .current)).sum := by
  have hlength (ms : List Measurement) : (Measurement.encodeAll .current ms).length
      = (ms.map (Measurement.packedSize .current)).sum := by
    induction ms with
    | nil => rfl
    | cons m ms ih =>
        rw [Measurement.encodeAll_cons, List.length_append, Measurement.length_encode, ih,
          List.map_cons, List.sum_cons]
  rw [size, h.payload_eq, hlength]

theorem Holds.admitsAll (h : b.Holds held) : b.limit.admitsAll held := by
  have hlt := h.size_lt
  rwa [h.size_eq] at hlt

/-- As long as the open packet has room for all of a group, it takes the group whole. -/
theorem Holds.continuePackets_append (h : b.Holds held) (hroom : b.limit.admitsAll (held ++ g))
    (ms : List Measurement) :
    ∃ b', continuePackets b (g ++ ms) = continuePackets b' ms
      ∧ b'.Holds (held ++ g) ∧ b'.limit = b.limit := by
  induction g generalizing b held with
  | nil => exact ⟨b, rfl, by simpa using h, rfl⟩
  | cons m g ih =>
      have hfits : b.size + m.packedSize .current < b.limit.bytes := by
        simp only [PacketLimit.admitsAll, List.map_append, List.map_cons, List.sum_append,
          List.sum_cons] at hroom
        have hsize := h.size_eq
        omega
      rw [List.append_cons] at hroom ⊢
      rcases h.continuePackets_cons m (g ++ ms) with
        ⟨b', hcons, -, hnext, hlimit, -⟩ | ⟨-, rfl, hno⟩ | ⟨-, -, -, hfull, -⟩
      · rw [← hlimit] at hroom
        obtain ⟨b'', hrest, hall, hlimit'⟩ := ih hnext hroom
        exact ⟨b'', hcons.trans hrest, hall, hlimit'.trans hlimit⟩
      · rw [h.size_of_nil] at hfits
        exact absurd (decide_eq_true hfits) hno
      · exact absurd hfits (Nat.not_lt.2 hfull)

/-- Whatever the open packet holds, a group costs one datagram more at most. -/
theorem Holds.length_continuePackets_append_le (h : b.Holds held) (hg : b.limit.admitsAll g)
    (ms : List Measurement) :
    ∃ b' held', b'.Holds held' ∧ b'.limit = b.limit
      ∧ (continuePackets b (g ++ ms)).length ≤ (continuePackets b' ms).length + 1 := by
  induction g generalizing b held with
  | nil => exact ⟨b, held, h, rfl, Nat.le_succ _⟩
  | cons m g ih =>
      have hadmits := PacketLimit.admits_of_admitsAll_cons hg
      rcases h.continuePackets_cons m (g ++ ms) with
        ⟨b', hcons, -, hnext, hlimit, -⟩ | ⟨-, -, hno⟩ | ⟨b', hcons, -, -, hnext, hlimit, -⟩
      · rw [← hlimit] at hg
        obtain ⟨b'', held', hheld, hlimit', hle⟩ := ih hnext (PacketLimit.admitsAll_of_cons hg)
        refine ⟨b'', held', hheld, hlimit'.trans hlimit, ?_⟩
        rwa [List.cons_append, hcons]
      · exact absurd hadmits hno
      · -- the new packet begins with the group, so it has room for the rest of it
        rw [List.filter_cons_of_pos hadmits, List.filter_nil] at hnext
        rw [← hlimit] at hg
        obtain ⟨b'', hrest, hall, hlimit'⟩ := hnext.continuePackets_append hg ms
        refine ⟨b'', m :: g, hall, hlimit'.trans hlimit, ?_⟩
        rw [List.cons_append, hcons, List.length_cons, hrest]

/-! ## Groupings -/

/-- The datagrams are those of some grouping, whose first group is what the open packet takes. -/
theorem Holds.exists_grouped (h : b.Holds held) (ms : List Measurement) :
    ∃ groups, b.limit.Grouped (held ++ ms) groups
      ∧ groups.length = (continuePackets b ms).length := by
  induction ms generalizing b held with
  | nil =>
      rw [continuePackets]
      by_cases hempty : held = []
      · subst hempty
        rw [if_pos (h.isEmpty_iff.2 rfl)]
        exact ⟨[], .nil, rfl⟩
      · rw [if_neg fun hb => hempty (h.isEmpty_iff.1 hb)]
        exact ⟨[held], .group h.admitsAll .nil, rfl⟩
  | cons m ms ih =>
      rcases h.continuePackets_cons m ms with
        ⟨b', hcons, -, hnext, hlimit, -⟩ | ⟨hcons, rfl, hno⟩ | ⟨b', hcons, -, -, hnext, hlimit, -⟩
      · obtain ⟨groups, hgroups, hlength⟩ := ih hnext
        rw [hlimit, ← List.append_cons] at hgroups
        exact ⟨groups, hgroups, by rw [hlength, hcons]⟩
      · obtain ⟨groups, hgroups, hlength⟩ := ih h
        exact ⟨groups, .skip hno hgroups, by rw [hlength, hcons]⟩
      · obtain ⟨groups, hgroups, hlength⟩ := ih hnext
        rw [hlimit] at hgroups
        refine ⟨held :: groups, .group h.admitsAll ?_, by rw [List.length_cons, hlength, hcons]; rfl⟩
        by_cases hadmits : b.limit.admits m = true
        · rwa [List.filter_cons_of_pos hadmits, List.filter_nil] at hgroups
        · rw [List.filter_cons_of_neg hadmits, List.filter_nil] at hgroups
          exact .skip hadmits hgroups

/-- No grouping has fewer groups than there are datagrams, but for one that the open packet may have
begun. -/
theorem length_continuePackets_le {ms : List Measurement} (hgroups : limit.Grouped ms groups)
    (h : b.Holds held) (hlimit : b.limit = limit) :
    (continuePackets b ms).length ≤ groups.length + 1
      ∧ (held = [] → (continuePackets b ms).length ≤ groups.length) := by
  -- group by group; the second part counts on an open packet that is still empty
  induction hgroups generalizing b held with
  | nil =>
      rw [continuePackets]
      refine ⟨by split <;> simp, ?_⟩
      rintro rfl
      simp [h.isEmpty_iff.2 rfl]
  | @skip m ms groups hm _ ih =>
      rcases h.continuePackets_cons m ms with
        ⟨-, -, hroom, -⟩ | ⟨hcons, rfl, -⟩ | ⟨b', hcons, hempty, -, hnext, hlimit', -⟩
      · have hsize : headerSize ≤ b.size := Nat.le_add_right _ _
        exact absurd (decide_eq_true (by rw [← hlimit]; omega)) hm
      · rw [hcons]
        exact ih h hlimit
      · rw [hlimit, List.filter_cons_of_neg hm] at hnext
        have hrest := (ih hnext (hlimit'.trans hlimit)).2 rfl
        rw [hcons, List.length_cons]
        exact ⟨Nat.succ_le_succ hrest, fun hheld => absurd hheld hempty⟩
  | @group g ms groups hg _ ih =>
      subst hlimit
      rw [List.length_cons]
      refine ⟨?_, ?_⟩
      · obtain ⟨b', held', hheld, hlimit', hle⟩ := h.length_continuePackets_append_le hg ms
        have hrest := (ih hheld hlimit').1
        omega
      · rintro rfl
        obtain ⟨b', hcons, hheld, hlimit'⟩ := h.continuePackets_append (g := g) hg ms
        rw [hcons]
        exact (ih hheld hlimit').1

end PacketBuilder

/-- The number of datagrams is the least number of groups of measurements that stand one behind
another.  If every measurement fits a packet, it is the least number of parts, each fit for a packet,
into which the list can be cut. -/
theorem isLeast_length_buildPackets (limit : PacketLimit) (timestamp : UInt64)
    (ms : List Measurement) :
    IsLeast {n | ∃ groups, limit.Grouped ms groups ∧ groups.length = n}
        (buildPackets limit timestamp ms).length
      ∧ ((∀ m ∈ ms, headerSize + m.packedSize .current < limit.bytes) →
        IsLeast {n | ∃ groups : List (List Measurement), groups.flatten = ms
            ∧ (∀ g ∈ groups,
              headerSize + (g.map (Measurement.packedSize .current)).sum < limit.bytes)
            ∧ groups.length = n}
          (buildPackets limit timestamp ms).length) := by
  have hstart := PacketBuilder.holds_start limit timestamp
  obtain ⟨groups, hgroups, hlength⟩ := hstart.exists_grouped ms
  have hleast (groups : List (List Measurement)) (h : limit.Grouped ms groups) :
      (buildPackets limit timestamp ms).length ≤ groups.length :=
    (PacketBuilder.length_continuePackets_le h hstart rfl).2 rfl
  refine ⟨⟨⟨groups, hgroups, hlength⟩, ?_⟩, ?_⟩
  · rintro n ⟨others, hothers, rfl⟩
    exact hleast others hothers
  · intro hall
    have hfilter : ms.filter limit.admits = ms :=
      List.filter_eq_self.2 fun m hm => decide_eq_true (hall m hm)
    refine ⟨⟨groups, hgroups.flatten_eq.trans hfilter, hgroups.admitsAll, hlength⟩, ?_⟩
    rintro n ⟨others, rfl, hothers, rfl⟩
    exact hleast others (.of_parts hothers)

/-- The first two of three measurements do not fit one packet. -/
theorem isLeast_length_buildPackets_twoDatagrams :
    let ms : List Measurement := [⟨"0", .zeroed .cpu⟩, ⟨"1", .zeroed .cpu⟩, ⟨"", .zeroed .load⟩]
    (∀ m ∈ ms, headerSize + m.packedSize .current < 40)
      ∧ IsLeast {n | ∃ groups : List (List Measurement), groups.flatten = ms
          ∧ (∀ g ∈ groups, headerSize + (g.map (Measurement.packedSize .current)).sum < 40)
          ∧ groups.length = n} 2 := by
  intro ms
  have hall : ∀ m ∈ ms, headerSize + m.packedSize .current < 40 := by decide +kernel
  have hlength : (buildPackets ⟨40, by decide, by decide⟩ 7 ms).length = 2 := by decide +kernel
  have hleast := (isLeast_length_buildPackets ⟨40, by decide, by decide⟩ 7 ms).2 hall
  rw [hlength] at hleast
  exact ⟨hall, hleast⟩

/-- A measurement that fits no packet closes the packet at hand: two that fit one packet together are
sent in two datagrams, if it stands between them. -/
theorem not_isLeast_length_buildPackets :
    let ms : List Measurement :=
      [⟨"0", .zeroed .cpu⟩, ⟨"", .zeroed .packetFilter⟩, ⟨"1", .zeroed .cpu⟩]
    ¬IsLeast {n | ∃ groups : List (List Measurement),
          groups.flatten = ms.filter (fun m => headerSize + m.packedSize .current < 60)
          ∧ (∀ g ∈ groups, headerSize + (g.map (Measurement.packedSize .current)).sum < 60)
          ∧ groups.length = n}
        (buildPackets ⟨60, by decide, by decide⟩ 7 ms).length := by
  intro ms hleast
  have hlength : (buildPackets ⟨60, by decide, by decide⟩ 7 ms).length = 2 := by decide +kernel
  have hone : 2 ≤ 1 := by
    rw [hlength] at hleast
    exact hleast.2 ⟨[[⟨"0", .zeroed .cpu⟩, ⟨"1", .zeroed .cpu⟩]], by decide +kernel,
      by decide +kernel, rfl⟩
  exact absurd hone (by decide)

end Telemetry
