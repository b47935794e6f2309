import Mathlib.Data.List.Induction
import Telemetry.Proofs.Config.Loading

/-!
# Keeping — the first entry under each key

Entries are added one by one, and those that are refused leave the registry as it is
(`Registry.offered`).  What is kept are the entries whose key no entry in front of them has
(`Registry.entries_offered_insert`); destinations are kept when neither their name nor their address
is taken.  Main statement: `Registry.keeps_first`.
-/

namespace Telemetry

/-! ## First occurrences -/

section

variable {α κ : Type} [DecidableEq κ] (key : α → κ)

/-- The members whose key no member in front of them has, in their order. -/
def firstOccurrences : List α → List α
  | [] => []
  | a :: as => a :: (firstOccurrences as).filter fun b => key b ≠ key a

theorem firstOccurrences_concat (as : List α) (a : α) :
    firstOccurrences key (as ++ [a]) =
      if ∃ b ∈ as, key b = key a then firstOccurrences key as
      else firstOccurrences key as ++ [a] := by
  induction as with
  | nil => simp [firstOccurrences]
  | cons b as ih =>
      rw [List.cons_append, firstOccurrences, firstOccurrences, ih]
      by_cases hlater : ∃ c ∈ as, key c = key a
      · have hsome : ∃ c ∈ b :: as, key c = key a := by
          rcases hlater with ⟨c, hc, hkey⟩
          exact ⟨c, List.mem_cons_of_mem b hc, hkey⟩
        rw [if_pos hlater, if_pos hsome]
      · by_cases hfirst : key b = key a
        · -- the new member is held back by the first one
          have hsome : ∃ c ∈ b :: as, key c = key a := ⟨b, List.mem_cons_self, hfirst⟩
          rw [if_neg hlater, if_pos hsome]
          simp [hfirst]
        · have hnone : ¬∃ c ∈ b :: as, key c = key a := by
            rintro ⟨c, hc, hkey⟩
            rcases List.mem_cons.1 hc with rfl | hc
            · exact hfirst hkey
            · exact hlater ⟨c, hc, hkey⟩
          rw [if_neg hlater, if_neg hnone]
          simp [Ne.symm hfirst]

theorem exists_key_firstOccurrences {as : List α} {k : κ} :
    (∃ b ∈ firstOccurrences key as, key b = k) ↔ ∃ a ∈ as, key a = k := by
  induction as using List.reverseRecOn with
  | nil => exact Iff.rfl
  | append_singleton as a ih =>
      have hconcat : (∃ b ∈ as ++ [a], key b = k) ↔ (∃ b ∈ as, key b = k) ∨ key a = k := by
        simp [or_and_right, exists_or]
      rw [firstOccurrences_concat, hconcat]
      split
      next hthere =>
          rw [ih]
          refine ⟨Or.inl, ?_⟩
          rintro (h | rfl)
          · exact h
          · exact hthere
      next =>
          rw [← ih]
          simp [or_and_right, exists_or]

end

/-! ## Additions, the refused ones left out -/

namespace Registry

variable {α κ : Type}

/-- What is kept of entries that are added one by one. -/
def offered (add : Registry α → α → Except Duplicate (Registry α)) (es : List α) : Registry α :=
  es.foldl (fun r e => (add r e).toOption.getD r) empty

section

variable {add : Registry α → α → Except Duplicate (Registry α)} {es : List α} {e : α}

theorem offered_concat :
    offered add (es ++ [e]) = (add (offered add es) e).toOption.getD (offered add es) := by
  rw [offered, List.foldl_concat]
  rfl

theorem offered_concat_of_ok {r : Registry α} (h : add (offered add es) e = .ok r) :
    offered add (es ++ [e]) = r := by
  rw [offered_concat, h]
  rfl

theorem offered_concat_of_error {d : Duplicate} (h : add (offered add es) e = .error d) :
    offered add (es ++ [e]) = offered add es := by
  rw [offered_concat, h]
  rfl

end

/-- Entries are kept that fit each other, if only those are added that fit the ones before them. -/
theorem pairwise_offered {add : Registry α → α → Except Duplicate (Registry α)}
    {fits : α → α → Prop}
    (hadd : ∀ r e r', add r e = .ok r' →
      (∀ x ∈ r.entries, fits x e) ∧ r' = ⟨r.entries ++ [e]⟩) (es : List α) :
    (offered add es).entries.Pairwise fits := by
  induction es using List.reverseRecOn with
  | nil => exact .nil
  | append_singleton es e ih =>
      cases hresult : add (offered add es) e with
      | error d =>
          rw [offered_concat_of_error hresult]
          exact ih
      | ok r =>
          obtain ⟨hfits, rfl⟩ := hadd _ e r hresult
          rw [offered_concat_of_ok hresult]
          have hlast : ∀ x ∈ (offered add es).entries, ∀ y ∈ [e], fits x y := by
            simpa using hfits
          exact List.pairwise_append.2 ⟨ih, List.pairwise_singleton fits e, hlast⟩

variable [Keyed α κ] [DecidableEq κ] {r : Registry α} {e : α}

theorem insert_of_free (h : ¬∃ x ∈ r.entries, Keyed.key x = Keyed.key e) :
    r.insert e = .ok ⟨r.entries ++ [e]⟩ :=
  insert_eq_ok_iff.2 ⟨fun x hx hkey => h ⟨x, hx, hkey⟩, rfl⟩

theorem insert_of_taken (h : ∃ x ∈ r.entries, Keyed.key x = Keyed.key e) :
    r.insert e = .error ⟨Keyed.noun α, Keyed.keyText e⟩ := by
  have hfound : (r.find? (Keyed.key e)).isSome = true := by
    rw [← Option.ne_none_iff_isSome]
    intro hnone
    rcases h with ⟨x, hx, hkey⟩
    exact find?_eq_none_iff.1 hnone x hx hkey
  rw [insert, if_pos hfound]

theorem distinct_offered_insert (es : List α) : (offered insert es).Distinct := by
  rw [distinct_iff_pairwise]
  exact pairwise_offered (fun r e r' h => insert_eq_ok_iff.1 h) es

theorem entries_offered_insert (es : List α) :
    (offered insert es).entries = firstOccurrences Keyed.key es := by
  induction es using List.reverseRecOn with
  | nil => rfl
  | append_singleton es e ih =>
      rw [firstOccurrences_concat]
      -- a key is taken just when an entry offered before has it
      have htaken : (∃ x ∈ (offered insert es).entries, Keyed.key x = Keyed.key e)
          ↔ ∃ x ∈ es, Keyed.key x = Keyed.key e := by
        rw [ih]
        exact exists_key_firstOccurrences Keyed.key
      by_cases h : ∃ x ∈ es, Keyed.key x = Keyed.key e
      · rw [offered_concat_of_error (insert_of_taken (htaken.2 h)), if_pos h]
        exact ih
      · rw [offered_concat_of_ok (insert_of_free (mt htaken.1 h)), if_neg h, ← ih]

end Registry

/-! ## Streams by kind and argument -/

namespace ChannelSet

variable (cs : ChannelSet)

theorem lookup?_eq_find? (k : StreamKey) :
    cs.lookup? k.kind k.argument = Registry.find? cs k := by
  rw [lookup?, Registry.find?]
  congr 1
  funext c
  obtain ⟨⟨kind, argument, _, _⟩, _⟩ := c
  obtain ⟨kind', argument', _, _⟩ := k
  simp [StreamKey.isNamed, Keyed.key, Bool.beq_eq_decide_eq]

theorem lookup?_eq_none {kind : StreamKind} {argument : String}
    (h : ∀ k : StreamKey, k.argument ≠ argument) : cs.lookup? kind argument = none := by
  rw [lookup?, List.find?_eq_none]
  intro c _
  simp [StreamKey.isNamed, h c.key]

/-- Looking a decoded kind and argument up agrees with the key that they make, if they make one. -/
theorem lookup?_eq (kind : StreamKind) (argument : String) :
    cs.lookup? kind argument =
      (StreamKey.ofArgument kind argument).toOption.bind (Registry.find? cs) := by
  rw [StreamKey.ofArgument]
  split
  next hfits =>
      split
      next hnul =>
          apply cs.lookup?_eq_none
          rintro k rfl
          exact k.noNul hnul
      next hnul => exact cs.lookup?_eq_find? ⟨kind, argument, hfits, hnul⟩
  next hlong =>
      apply cs.lookup?_eq_none
      rintro k rfl
      exact hlong k.fits

end ChannelSet

/-! ## Destinations, by name and by address -/

namespace MuxSet

variable {ms : MuxSet} {m : Mux}

theorem add_of_free (hname : ¬∃ x ∈ ms.entries, x.name = m.name)
    (haddress : ¬∃ x ∈ ms.entries, x.address = m.address) : add ms m = .ok ⟨ms.entries ++ [m]⟩ := by
  refine add_eq_ok_iff.2 ⟨fun x hx => ⟨?_, ?_⟩, rfl⟩
  · exact fun hsame => hname ⟨x, hx, hsame⟩
  · exact fun hsame => haddress ⟨x, hx, hsame⟩

theorem findByName?_eq_none_iff {name : String} :
    findByName? ms name = none ↔ ¬∃ x ∈ ms.entries, x.name = name := by
  simp [findByName?]

theorem add_of_nameTaken (h : ∃ x ∈ ms.entries, x.name = m.name) :
    add ms m = .error ⟨"mux", m.name⟩ := by
  have hfound : (findByName? ms m.name).isSome = true := by
    rw [← Option.ne_none_iff_isSome]
    exact fun hnone => findByName?_eq_none_iff.1 hnone h
  rw [add, if_pos hfound]

theorem add_of_addressTaken (hname : ¬∃ x ∈ ms.entries, x.name = m.name)
    (haddress : ∃ x ∈ ms.entries, x.address = m.address) :
    add ms m = .error ⟨"mux", m.address.text⟩ := by
  have hfree : findByName? ms m.name = none := findByName?_eq_none_iff.2 hname
  rw [add, hfree]
  exact Registry.insert_of_taken haddress

/-- Under distinct names a destination is found by its name. -/
theorem findByName?_of_mem (h : ms.entries.Pairwise fun x y => x.name ≠ y.name)
    (hm : m ∈ ms.entries) : findByName? ms m.name = some m := by
  cases hfound : findByName? ms m.name with
  | none => exact absurd ⟨m, hm, rfl⟩ (findByName?_eq_none_iff.1 hfound)
  | some x =>
      have hx : x ∈ ms.entries := List.mem_of_find?_eq_some hfound
      have hname : x.name = m.name := by simpa using List.find?_some hfound
      have hnodup : (ms.entries.map Mux.name).Nodup := List.pairwise_map.2 h
      exact congrArg some (List.inj_on_of_nodup_map hnodup hx hm hname)

end MuxSet

/-! ## What registries keep -/

namespace Registry

/-- Of entries added one by one a registry keeps the first under each key, in their order, and reports
the others by their key; an entry is found by its key, a stream by its kind and argument too.
Destinations that are added by name and address are kept when neither is taken, and are found by
both. -/
theorem keeps_first :
    (∀ {α κ : Type} [Keyed α κ] [DecidableEq κ] (es : List α),
      let r : Registry α := offered insert es
      r.entries = firstOccurrences Keyed.key es
        ∧ r.Distinct
        ∧ (∀ k e, r.find? k = some e ↔ e ∈ r.entries ∧ Keyed.key e = k)
        ∧ (∀ k, r.find? k = none ↔ ∀ e ∈ r.entries, Keyed.key e ≠ k)
        ∧ ∀ e,
          ((∃ x ∈ r.entries, Keyed.key x = Keyed.key e) →
            r.insert e = .error ⟨Keyed.noun α, Keyed.keyText e⟩ ∧ offered insert (es ++ [e]) = r)
          ∧ ((¬∃ x ∈ r.entries, Keyed.key x = Keyed.key e) →
            r.insert e = .ok ⟨r.entries ++ [e]⟩
              ∧ offered insert (es ++ [e]) = ⟨r.entries ++ [e]⟩))
    ∧ (∀ (cs : ChannelSet) (kind : StreamKind) (argument : String),
      cs.lookup? kind argument = (StreamKey.ofArgument kind argument).toOption.bind cs.find?)
    ∧ ∀ ms : List Mux,
      let r : MuxSet := offered MuxSet.add ms
      (r.entries.map Mux.name).Nodup
        ∧ (r.entries.map Mux.address).Nodup
        ∧ (∀ m ∈ r.entries, r.find? m.address = some m ∧ r.findByName? m.name = some m)
        ∧ ∀ m,
          ((∃ x ∈ r.entries, x.name = m.name) →
            r.add m = .error ⟨"mux", m.name⟩ ∧ offered MuxSet.add (ms ++ [m]) = r)
          ∧ ((¬∃ x ∈ r.entries, x.name = m.name) → (∃ x ∈ r.entries, x.address = m.address) →
            r.add m = .error ⟨"mux", m.address.text⟩ ∧ offered MuxSet.add (ms ++ [m]) = r)
          ∧ ((¬∃ x ∈ r.entries, x.name = m.name) → (¬∃ x ∈ r.entries, x.address = m.address) →
            r.add m = .ok ⟨r.entries ++ [m]⟩
              ∧ offered MuxSet.add (ms ++ [m]) = ⟨r.entries ++ [m]⟩) := by
  refine ⟨?_, fun cs kind argument => cs.lookup?_eq kind argument, ?_⟩
  · intro α κ _ _ es r
    have hdistinct : r.Distinct := distinct_offered_insert es
    refine ⟨entries_offered_insert es, hdistinct, fun k e => hdistinct.find?_eq_some_iff,
      fun k => find?_eq_none_iff, fun e => ⟨?_, ?_⟩⟩
    · intro htaken
      have hinsert : r.insert e = .error ⟨Keyed.noun α, Keyed.keyText e⟩ := insert_of_taken htaken
      exact ⟨hinsert, offered_concat_of_error hinsert⟩
    · intro hfree
      have hinsert : r.insert e = .ok ⟨r.entries ++ [e]⟩ := insert_of_free hfree
      exact ⟨hinsert, offered_concat_of_ok hinsert⟩
  · intro ms r
    have hpairwise : r.entries.Pairwise fun x y => x.name ≠ y.name ∧ x.address ≠ y.address :=
      pairwise_offered (fun r m r' h => MuxSet.add_eq_ok_iff.1 h) ms
    have hnames : r.entries.Pairwise fun x y => x.name ≠ y.name := hpairwise.imp And.left
    have haddresses : r.Distinct := distinct_iff_pairwise.2 (hpairwise.imp And.right)
    refine ⟨List.pairwise_map.2 hnames, haddresses, fun m hm => ⟨?_, ?_⟩, fun m => ⟨?_, ?_, ?_⟩⟩
    · exact haddresses.find?_eq_some_iff.2 ⟨hm, rfl⟩
    · exact MuxSet.findByName?_of_mem hnames hm
    · intro hname
      have hadd : r.add m = .error ⟨"mux", m.name⟩ := MuxSet.add_of_nameTaken hname
      exact ⟨hadd, offered_concat_of_error hadd⟩
    · intro hname haddress
      have hadd : r.add m = .error ⟨"mux", m.address.text⟩ :=
        MuxSet.add_of_addressTaken hname haddress
      exact ⟨hadd, offered_concat_of_error hadd⟩
    · intro hname haddress
      have hadd : r.add m = .ok ⟨r.entries ++ [m]⟩ := MuxSet.add_of_free hname haddress
      exact ⟨hadd, offered_concat_of_ok hadd⟩

end Registry
end Telemetry
