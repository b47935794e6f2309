import Mathlib.Data.List.Basic
import Mathlib.Data.List.Induction
import Mathlib.Data.List.Nodup
import Telemetry.Agent.ProbeSet

/-!
# Probing — which keys are sampled, and what the counting probe counts

Which keys a set of probes takes never changes (`ProbeSet.takes_prepare`, `ProbeSet.takes_sampleAll`), and
preparing keys activates just those (`ProbeSet.prepare_fst`).  A set whose only probe is the counting one
gives each key that it samples the number of its samples so far (`ProbeSet.Counts.sampleAll`), and
preparing a key again does not set that number back (`ProbeSet.Counts.prepare`).
-/

namespace Telemetry

/-! ## Counts of one probe -/

namespace Ticks

variable {t : Ticks} {argument argument' : String} {n : UInt64}

@[simp]
theorem of_put_self : (t.put argument n).of argument = n := by
  simp [put, of]

theorem of_put_of_ne (h : argument' ≠ argument) : (t.put argument n).of argument' = t.of argument' := by
  rw [put, of, of, List.find?_cons_of_neg (by simpa using h.symm), List.find?_filter]
  congr 3
  funext e
  by_cases he : e.1 = argument'
  · simp [he, h]
  · simp [he]

end Ticks

/-! ## Which keys a probe takes -/

namespace Probe

variable (p : Probe) (key key' : StreamKey)

/-- Whether a probe gets ready for a key. -/
def takes : Bool :=
  (p.prepare key).1.toBool

theorem kind_prepare : (p.prepare key).2.kind = p.kind := by
  cases p <;> rfl

theorem kind_sample : (p.sample key).2.kind = p.kind := by
  cases p <;> rfl

theorem takes_prepare : (p.prepare key').2.takes key = p.takes key := by
  cases p <;> rfl

theorem takes_sample : (p.sample key').2.takes key = p.takes key := by
  cases p <;> rfl

end Probe

/-! ## Which keys a set takes -/

namespace ProbeSet

variable {s : ProbeSet} {p q : Probe}

theorem find?_register (s : ProbeSet) (p : Probe) (kind : StreamKind) :
    (s.register p).find? kind = if p.kind = kind then some p else s.find? kind := by
  rw [register, find?, find?, List.find?_append]
  by_cases hkind : p.kind = kind
  · -- no other of that kind is left
    have hnone : (s.probes.filter fun q => q.kind ≠ p.kind).find? (fun q => q.kind = kind) = none := by
      rw [List.find?_eq_none]
      intro q hq
      simpa [hkind] using (List.mem_filter.1 hq).2
    rw [hnone, if_pos hkind]
    simp [hkind]
  · have hsame : (s.probes.filter fun q => q.kind ≠ p.kind).find? (fun q => q.kind = kind)
        = s.probes.find? fun q => q.kind = kind := by
      rw [List.find?_filter]
      congr 1
      funext q
      by_cases hq : q.kind = kind
      · simp [hq, Ne.symm hkind]
      · simp [hq]
    rw [hsame, if_neg hkind]
    simp [hkind]

def takes (s : ProbeSet) (key : StreamKey) : Bool :=
  match s.find? key.kind with
  | none => false
  | some p => p.takes key

theorem find?_kind {kind : StreamKind} (h : s.find? kind = some p) : p.kind = kind := by
  simpa using List.find?_some h

/-- A probe gives way to one of its kind that takes the same keys. -/
theorem takes_called {kind : StreamKind} (hfound : s.find? kind = some p) (hkind : q.kind = p.kind)
    (htakes : ∀ key, q.takes key = p.takes key) (calls : List ProbeCall) :
    (s.called q calls).takes = s.takes := by
  funext key
  have hcalled : (s.called q calls).find? key.kind = (s.register q).find? key.kind := rfl
  rw [takes, takes, hcalled, find?_register]
  by_cases hq : q.kind = key.kind
  · have hsame : s.find? key.kind = some p := by rw [← hq, hkind, find?_kind hfound, hfound]
    rw [if_pos hq, hsame]
    exact htakes key
  · rw [if_neg hq]

/-! ## Preparing -/

theorem prepareOne_fst (s : ProbeSet) (key : StreamKey) : (s.prepareOne key).1 = s.takes key := by
  rw [prepareOne, takes]
  cases s.find? key.kind with
  | none => rfl
  | some p => rfl

theorem takes_prepareOne (s : ProbeSet) (key : StreamKey) : (s.prepareOne key).2.takes = s.takes := by
  rw [prepareOne]
  cases hfound : s.find? key.kind with
  | none => rfl
  | some p => exact takes_called hfound (p.kind_prepare key) (p.takes_prepare · key) _

theorem prepare_concat (s : ProbeSet) (keys : List StreamKey) (key : StreamKey) :
    s.prepare (keys ++ [key])
      = (if ((s.prepare keys).2.prepareOne key).1 then (s.prepare keys).1 ++ [key]
          else (s.prepare keys).1, ((s.prepare keys).2.prepareOne key).2) := by
  rw [prepare, List.foldl_concat]
  rfl

theorem takes_prepare (s : ProbeSet) (keys : List StreamKey) : (s.prepare keys).2.takes = s.takes := by
  induction keys using List.reverseRecOn with
  | nil => rfl
  | append_singleton keys key ih =>
      rw [prepare_concat]
      exact (takes_prepareOne _ key).trans ih

/-- Of the keys that are prepared those are active that the set takes. -/
theorem prepare_fst (s : ProbeSet) (keys : List StreamKey) :
    (s.prepare keys).1 = keys.filter s.takes := by
  induction keys using List.reverseRecOn with
  | nil => rfl
  | append_singleton keys key ih =>
      rw [prepare_concat, List.filter_append, List.filter_singleton, prepareOne_fst, takes_prepare, ih]
      cases s.takes key with
      | true => rfl
      | false => exact (List.append_nil _).symm

/-! ## Sampling -/

theorem takes_sample (s : ProbeSet) (key : StreamKey) : (s.sample key).2.takes = s.takes := by
  rw [sample]
  cases hfound : s.find? key.kind with
  | none => rfl
  | some p => exact takes_called hfound (p.kind_sample key) (p.takes_sample · key) _

theorem sampleAll_concat (s : ProbeSet) (keys : List StreamKey) (key : StreamKey) :
    s.sampleAll (keys ++ [key])
      = match (s.sampleAll keys).2.sample key with
        | (.ok record, s') => (Samples.put key record (s.sampleAll keys).1, s')
        | (.error _, s') => ((s.sampleAll keys).1, s') := by
  rw [sampleAll, List.foldl_concat]
  rfl

theorem takes_sampleAll (s : ProbeSet) (keys : List StreamKey) :
    (s.sampleAll keys).2.takes = s.takes := by
  induction keys using List.reverseRecOn with
  | nil => rfl
  | append_singleton keys key ih =>
      have hsample := takes_sample (s.sampleAll keys).2 key
      rw [sampleAll_concat, ← ih]
      generalize (s.sampleAll keys).2.sample key = result at hsample ⊢
      obtain ⟨_ | _, s'⟩ := result
      · exact hsample
      · exact hsample

namespace Samples

variable {samples : Samples} {key key' : StreamKey} {record : Record}

@[simp]
theorem get?_put_self (samples : Samples) : (put key record samples).get? key = some record := by
  induction samples with
  | nil => simp [put, get?]
  | cons e rest ih =>
      rw [put]
      split
      · simp [get?]
      next hne =>
        split
        · simp [get?]
        · simpa [get?, hne] using ih

theorem get?_put_of_ne (h : key' ≠ key) (samples : Samples) :
    (put key record samples).get? key' = samples.get? key' := by
  induction samples with
  | nil => simp [put, get?, h.symm]
  | cons e rest ih =>
      rw [put]
      split
      next heq => simp [get?, heq, h.symm]
      next =>
        split
        · simp [get?, h.symm]
        · by_cases he : e.1 = key'
          · simp [get?, he]
          · simpa [get?, he] using ih

end Samples

/-! ## Counting samples -/

/-- The only probe is the counting one, and it has taken so many samples of each key. -/
def Counts (s : ProbeSet) (count : StreamKey → Nat) : Prop :=
  ∃ ticks calls, s = ⟨[.counting ticks], calls⟩
    ∧ ∀ key : StreamKey, key.kind = .synthetic →
        ticks.of key.argument = UInt64.ofNat (count key)

theorem counts_bundled : bundled.Counts fun _ => 0 :=
  ⟨[], [], rfl, fun _ _ => rfl⟩

namespace Counts

variable {count : StreamKey → Nat} {key : StreamKey} {keys : List StreamKey}

theorem takes_eq (h : s.Counts count) (key : StreamKey) :
    s.takes key = decide (key.kind = .synthetic) := by
  obtain ⟨ticks, calls, rfl, -⟩ := h
  rw [takes, find?]
  by_cases hkind : key.kind = .synthetic
  · simp [hkind, Probe.kind, Probe.takes, Probe.prepare, Except.toBool]
  · simp [hkind, Probe.kind, eq_comm (a := StreamKind.synthetic)]

theorem refresh (h : s.Counts count) : s.refresh.Counts count := by
  obtain ⟨ticks, calls, rfl, hcount⟩ := h
  exact ⟨ticks, _, rfl, hcount⟩

theorem prepareOne (h : s.Counts count) (key : StreamKey) : (s.prepareOne key).2.Counts count := by
  have htakes := h.takes_eq key
  obtain ⟨ticks, calls, rfl, hcount⟩ := h
  rw [ProbeSet.prepareOne, find?]
  by_cases hkind : key.kind = .synthetic
  · refine ⟨ticks.put key.argument (ticks.of key.argument), calls, ?_, ?_⟩
    · simp [hkind, Probe.kind, Probe.prepare, called, register, Probe.calls]
    · intro key' hkind'
      by_cases hargument : key'.argument = key.argument
      · rw [hargument, Ticks.of_put_self, ← hargument, hcount key' hkind']
      · rw [Ticks.of_put_of_ne hargument, hcount key' hkind']
  · refine ⟨ticks, calls, ?_, hcount⟩
    simp [Probe.kind, eq_comm (a := StreamKind.synthetic), hkind]

/-- No count is set back. -/
theorem prepare (h : s.Counts count) (keys : List StreamKey) : (s.prepare keys).2.Counts count := by
  induction keys using List.reverseRecOn with
  | nil => exact h
  | append_singleton keys key ih =>
      rw [prepare_concat]
      exact ih.prepareOne key

theorem sample (h : s.Counts count) (hkind : key.kind = .synthetic) :
    (s.sample key).1 = .ok (syntheticRecord (UInt64.ofNat (count key + 1)))
      ∧ (s.sample key).2.Counts fun key' => if key' = key then count key + 1 else count key' := by
  obtain ⟨ticks, calls, rfl, hcount⟩ := h
  have hnext : ticks.of key.argument + 1 = UInt64.ofNat (count key + 1) := by
    rw [hcount key hkind, UInt64.ofNat_add]
    rfl
  have hsample : (⟨[.counting ticks], calls⟩ : ProbeSet).sample key
      = (.ok (syntheticRecord (ticks.of key.argument + 1)),
        ⟨[.counting (ticks.put key.argument (ticks.of key.argument + 1))], calls⟩) := by
    simp [ProbeSet.sample, find?, hkind, Probe.kind, Probe.sample, called, register, Probe.calls]
  rw [hsample, hnext]
  refine ⟨rfl, _, calls, rfl, ?_⟩
  intro key' hkind'
  dsimp only
  split
  next heq => rw [heq, Ticks.of_put_self]
  next hne =>
      -- keys of one kind differ in their arguments
      have hargument : key'.argument ≠ key.argument := by
        intro heq
        apply hne
        cases key'
        cases key
        cases heq
        cases hkind.trans hkind'.symm
        rfl
      rw [Ticks.of_put_of_ne hargument, hcount key' hkind']

/-- Each key is sampled once: its record has one more than the number of its samples before. -/
theorem sampleAll (h : s.Counts count) (hkind : ∀ key ∈ keys, key.kind = .synthetic)
    (hnodup : keys.Nodup) :
    (∀ key, (s.sampleAll keys).1.get? key
        = if key ∈ keys then some (syntheticRecord (UInt64.ofNat (count key + 1))) else none)
      ∧ (s.sampleAll keys).2.Counts fun key =>
          if key ∈ keys then count key + 1 else count key := by
  induction keys using List.reverseRecOn with
  | nil => exact ⟨fun _ => rfl, h.refresh⟩
  | append_singleton keys key ih =>
      rw [List.forall_mem_append, List.forall_mem_singleton] at hkind
      rw [← List.concat_eq_append, List.nodup_concat] at hnodup
      obtain ⟨hget, hcounts⟩ := ih hkind.1 hnodup.2
      obtain ⟨hrecord, hnext⟩ := hcounts.sample hkind.2
      -- the key was not among those before, so it still has its old count
      rw [if_neg hnodup.1] at hrecord hnext
      rw [sampleAll_concat]
      generalize (s.sampleAll keys).2.sample key = result at hrecord hnext ⊢
      obtain ⟨_ | record, s'⟩ := result
      · contradiction
      cases hrecord
      constructor
      · intro key'
        by_cases hkey : key' = key
        · subst hkey
          rw [Samples.get?_put_self, if_pos (List.mem_append_right _ (List.mem_singleton_self _))]
        · rw [Samples.get?_put_of_ne hkey, hget]
          simp [hkey]
      · convert hnext using 2
        next key' =>
        by_cases hkey : key' = key
        · simp [hkey]
        · simp [hkey]

end Counts

theorem takes_bundled (key : StreamKey) : bundled.takes key = bundled.supports key.kind := by
  rw [counts_bundled.takes_eq]
  cases key.kind <;> rfl

end ProbeSet
end Telemetry
