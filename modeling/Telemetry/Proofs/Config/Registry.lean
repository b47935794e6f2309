import Mathlib.Data.List.Forall2
import Mathlib.Data.List.Nodup
import Telemetry.Config.Registry
import Telemetry.Proofs.Steps

/-!
# Registry — entries under distinct keys

Adding an entry keeps the keys of a registry distinct, and so does exchanging the last entry for one
of the same key.  Under distinct keys an entry is found by its key, and by no other
(`Registry.Distinct.find?_eq_some_iff`).  Additions that append one entry each succeed, all of them,
just when the entries fit each other (`Registry.foldlM_eq_ok_iff`).
-/

namespace Telemetry
namespace Registry

variable {α κ : Type} [Keyed α κ]

def Distinct (r : Registry α) : Prop :=
  (r.entries.map Keyed.key).Nodup

theorem distinct_empty : (empty : Registry α).Distinct :=
  List.nodup_nil

theorem Distinct.concat {r : Registry α} {e : α} (h : r.Distinct)
    (hfree : ∀ x ∈ r.entries, Keyed.key x ≠ Keyed.key e) :
    (Registry.mk (r.entries ++ [e])).Distinct := by
  rw [Distinct, List.map_append, List.map_singleton, List.nodup_append]
  refine ⟨h, List.nodup_singleton _, ?_⟩
  intro k hk k' hk'
  obtain ⟨x, hx, rfl⟩ := List.mem_map.1 hk
  rw [List.mem_singleton.1 hk']
  exact hfree x hx

theorem distinct_iff_pairwise {r : Registry α} :
    r.Distinct ↔ r.entries.Pairwise fun x y => Keyed.key x ≠ Keyed.key y :=
  List.pairwise_map

/-- Entries whose keys are computed from something have distinct keys just when no two of the
computations agree. -/
theorem distinct_iff_of_forall₂ {β ε : Type} {compute : β → Except ε κ} {bs : List β}
    {r : Registry α} (h : List.Forall₂ (fun b e => compute b = .ok (Keyed.key e)) bs r.entries) :
    r.Distinct ↔ bs.Pairwise fun x y => compute x ≠ compute y := by
  have hcomputed : bs.map compute = (r.entries.map Keyed.key).map Except.ok := by
    rw [← List.forall₂_eq_eq_eq, List.map_map, List.forall₂_map_left_iff, List.forall₂_map_right_iff]
    exact h
  have hinjective : Function.Injective (Except.ok : κ → Except ε κ) := fun _ _ heq => Except.ok.inj heq
  rw [← List.pairwise_map (R := (· ≠ ·)), hcomputed]
  exact (List.nodup_map_iff hinjective).symm

variable [DecidableEq κ] {r r' : Registry α} {e : α} {k : κ}

theorem find?_eq_none_iff : r.find? k = none ↔ ∀ e ∈ r.entries, Keyed.key e ≠ k := by
  simp [find?]

theorem of_find? (h : r.find? k = some e) : e ∈ r.entries ∧ Keyed.key e = k :=
  ⟨List.mem_of_find?_eq_some h, by simpa using List.find?_some h⟩

theorem insert_eq_ok_iff : r.insert e = .ok r' ↔
    (∀ x ∈ r.entries, Keyed.key x ≠ Keyed.key e) ∧ r' = ⟨r.entries ++ [e]⟩ := by
  rw [← find?_eq_none_iff, insert]
  split
  next htaken =>
      have hfound : r.find? (Keyed.key e) ≠ none := Option.ne_none_iff_isSome.2 htaken
      simp [hfound]
  next hfree =>
      have hfree : r.find? (Keyed.key e) = none := by simpa using hfree
      simp [hfree, eq_comm (b := r')]

theorem Distinct.find?_eq_some_iff (h : r.Distinct) :
    r.find? k = some e ↔ e ∈ r.entries ∧ Keyed.key e = k := by
  refine ⟨of_find?, ?_⟩
  rintro ⟨hmem, rfl⟩
  cases hfound : r.find? (Keyed.key e) with
  | none => exact absurd rfl (find?_eq_none_iff.1 hfound e hmem)
  | some x =>
      obtain ⟨hx, hkey⟩ := of_find? hfound
      exact congrArg some (List.inj_on_of_nodup_map h hx hmem hkey)

@[simp]
theorem replaceLast_concat (es : List α) (e e' : α) :
    (Registry.mk (es ++ [e])).replaceLast e' = ⟨es ++ [e']⟩ := by
  rw [replaceLast, List.dropLast_concat]

/-! ## Additions one by one -/

/-- Additions that append one entry each succeed, all of them, just when there are entries that are
what they ask for, and that fit each other and those before them. -/
theorem foldlM_eq_ok_iff {β ε : Type} {add : Registry α → β → Except ε (Registry α)}
    {asks : β → α → Prop} {fits : α → α → Prop}
    (hadd : ∀ r b r', add r b = .ok r' ↔
      ∃ e, asks b e ∧ (∀ x ∈ r.entries, fits x e) ∧ r' = ⟨r.entries ++ [e]⟩)
    {bs : List β} (h : r.entries.Pairwise fits) :
    bs.foldlM add r = .ok r' ↔
      ∃ es, List.Forall₂ asks bs es ∧ r'.entries = r.entries ++ es ∧ r'.entries.Pairwise fits := by
  induction bs generalizing r with
  | nil =>
      constructor
      · intro hfold
        cases hfold
        exact ⟨[], .nil, by simp, h⟩
      · rintro ⟨es, hasks, hentries, -⟩
        cases hasks
        obtain ⟨entries⟩ := r'
        cases hentries
        simp [pure, Except.pure]
  | cons b bs ih =>
      rw [List.foldlM_cons, bind_eq_ok_iff]
      constructor
      · rintro ⟨next, hnext, hfold⟩
        obtain ⟨e, hasks, hfits, rfl⟩ := (hadd r b next).1 hnext
        have hpairwise : (r.entries ++ [e]).Pairwise fits := by
          simpa [List.pairwise_append] using ⟨h, hfits⟩
        obtain ⟨es, hrest, hentries, hpairwise⟩ := (ih hpairwise).1 hfold
        exact ⟨e :: es, .cons hasks hrest, by simpa using hentries, hpairwise⟩
      · rintro ⟨es, hasks, hentries, hpairwise⟩
        cases hasks with
        | @cons _ e _ es hasks hrest =>
            -- the entries up to this one fit each other, as all of them do
            have hfront : (r.entries ++ [e]).Pairwise fits := by
              rw [hentries, List.append_cons] at hpairwise
              exact (List.pairwise_append.1 hpairwise).1
            have hfits : ∀ x ∈ r.entries, fits x e := by
              simpa using (List.pairwise_append.1 hfront).2.2
            refine ⟨⟨r.entries ++ [e]⟩, (hadd r b _).2 ⟨e, hasks, hfits, rfl⟩, ?_⟩
            exact (ih hfront).2 ⟨es, hrest, by simpa using hentries, hpairwise⟩

theorem foldlM_empty_eq_ok_iff {β ε : Type} {add : Registry α → β → Except ε (Registry α)}
    {asks : β → α → Prop} {fits : α → α → Prop}
    (hadd : ∀ r b r', add r b = .ok r' ↔
      ∃ e, asks b e ∧ (∀ x ∈ r.entries, fits x e) ∧ r' = ⟨r.entries ++ [e]⟩) {bs : List β} :
    bs.foldlM add empty = .ok r ↔
      List.Forall₂ asks bs r.entries ∧ r.entries.Pairwise fits := by
  have hempty : (empty : Registry α).entries.Pairwise fits := .nil
  rw [foldlM_eq_ok_iff hadd hempty]
  simp [empty]

theorem forall₂_and_iff {β : Type} {asks : β → α → Prop} {good : α → Prop} {bs : List β}
    {es : List α} : List.Forall₂ (fun b e => asks b e ∧ good e) bs es ↔
      List.Forall₂ asks bs es ∧ ∀ e ∈ es, good e := by
  constructor
  · intro h
    induction h with
    | nil => exact ⟨.nil, nofun⟩
    | cons hboth _ ih => exact ⟨.cons hboth.1 ih.1, List.forall_mem_cons.2 ⟨hboth.2, ih.2⟩⟩
  · rintro ⟨hasks, hgood⟩
    induction hasks with
    | nil => exact .nil
    | cons hasks _ ih =>
        obtain ⟨hfirst, hrest⟩ := List.forall_mem_cons.1 hgood
        exact .cons ⟨hasks, hfirst⟩ (ih hrest)

/-- Entries are added to an empty registry, all of them, just when their keys are distinct. -/
theorem insertAll_empty_eq_ok_iff {es : List α} :
    empty.insertAll es = .ok r ↔ r.entries = es ∧ r.Distinct := by
  have hadd (r : Registry α) (e : α) (r' : Registry α) : r.insert e = .ok r' ↔
      ∃ x, e = x ∧ (∀ y ∈ r.entries, Keyed.key y ≠ Keyed.key x) ∧ r' = ⟨r.entries ++ [x]⟩ := by
    simp [insert_eq_ok_iff]
  rw [insertAll, foldlM_empty_eq_ok_iff hadd, distinct_iff_pairwise]
  simp [List.forall₂_eq_eq_eq, eq_comm]

end Registry
end Telemetry
