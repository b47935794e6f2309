import Telemetry.Proofs.Files.Locating

/-!
# Folders — making folders and new files

Making folders leaves what was there as it was (`Files.foldersAdded_of_makeFolders`).  A new file
stands where nothing stood and its path leads to it (`Files.Placed`); once it is removed, nothing but
the folders made on the way is left of it (`Files.Placed.erase`).
-/

namespace Telemetry
namespace Files

variable {fs fs' fs'' : Files} {l : Location} {n : Node} {p : FilePath}

theorem node?_erase (fs : Files) (hl : l ≠ []) (l' : Location) :
    (fs.erase l).node? l' = if l' = l then none else fs.node? l' := by
  by_cases hroot : l' = []
  · have hother : l' ≠ l := fun h => hl (h.symm.trans hroot)
    simp [node?, hroot, Ne.symm hl]
  · by_cases hsame : l' = l
    · simp [node?, erase, hsame, hl, List.find?_eq_none]
    · simp only [node?, erase, if_neg hroot, if_neg hsame, List.find?_filter]
      congr 2
      funext e
      by_cases he : e.1 = l' <;> simp [he, hsame]

/-! ## Folders -/

/-- What was there is as it was, and what is new are folders. -/
structure FoldersAdded (fs fs' : Files) : Prop where
  here : fs'.here = fs.here
  node? : ∀ l, fs'.node? l = fs.node? l ∨ fs.node? l = none ∧ fs'.node? l = some .folder

namespace FoldersAdded

theorem refl (fs : Files) : FoldersAdded fs fs :=
  ⟨rfl, fun _ => .inl rfl⟩

theorem trans (h : FoldersAdded fs fs') (h' : FoldersAdded fs' fs'') : FoldersAdded fs fs'' where
  here := h'.here.trans h.here
  node? l := by
    rcases h'.node? l with hsame | ⟨hnone, hfolder⟩
    · rw [hsame]
      exact h.node? l
    · -- a folder that the second made, where the first made none
      rcases h.node? l with hsame | ⟨-, hmade⟩
      · exact .inr ⟨hsame.symm.trans hnone, hfolder⟩
      · cases hnone.symm.trans hmade

theorem kept (h : FoldersAdded fs fs') (hn : fs.node? l = some n) : fs'.node? l = some n := by
  rcases h.node? l with hsame | ⟨hnone, -⟩
  · exact hsame.trans hn
  · cases hnone.symm.trans hn

theorem free (h : FoldersAdded fs fs') (hnone : fs'.node? l = none) : fs.node? l = none := by
  rcases h.node? l with hsame | ⟨hnone, -⟩
  · exact hsame.symm.trans hnone
  · exact hnone

end FoldersAdded

theorem foldersAdded_of_makeFolder (h : fs.makeFolder p = .ok fs') : FoldersAdded fs fs' := by
  rw [makeFolder] at h
  split at h
  · contradiction
  next target _ =>
  split at h
  · contradiction
  next hfree =>
  rw [Option.not_isSome_iff_eq_none] at hfree
  cases h
  have htarget : target ≠ [] := by
    rintro rfl
    cases hfree
  refine ⟨rfl, fun l => ?_⟩
  rw [node?_put fs htarget]
  by_cases hat : l = target
  · subst hat
    exact .inr ⟨hfree, if_pos rfl⟩
  · exact .inl (if_neg hat)

theorem foldersAdded_of_makeFoldersWithin {depth : Nat}
    (h : fs.makeFoldersWithin p depth = .ok fs') : FoldersAdded fs fs' := by
  induction depth generalizing p fs' with
  | zero =>
      cases h
      exact .refl fs
  | succ depth ih =>
      have hthere {fs₁ : Files} {f : SystemFault}
          (h : (if fs₁.isFolder p then Except.ok fs₁ else .error f) = .ok fs') :
          FoldersAdded fs₁ fs' := by
        split at h
        · cases h
          exact .refl fs'
        · contradiction
      rw [makeFoldersWithin] at h
      split at h
      · cases h
        exact .refl fs
      split at h
      next hmade =>
        cases h
        exact foldersAdded_of_makeFolder hmade
      next =>
        -- the folders above come first
        split at h
        · contradiction
        split at h
        · contradiction
        next habove =>
        have habove := ih habove
        split at h
        next hmade =>
          cases h
          exact habove.trans (foldersAdded_of_makeFolder hmade)
        next => exact habove.trans (hthere h)
      next => exact hthere h

theorem foldersAdded_of_makeFolders (h : fs.makeFolders p = .ok fs') : FoldersAdded fs fs' :=
  foldersAdded_of_makeFoldersWithin h

/-! ## New files -/

/-- A new file where a path leads, with folders made on the way. -/
inductive Placed (fs : Files) (p : FilePath) (l : Location) : Files → Prop where
  | put (between : Files) (folders : FoldersAdded fs between) (follow : between.follow p = .ok l)
      (free : between.node? l = none) : Placed fs p l (between.put l (.file []))

theorem placed_of_createNew (hfolders : FoldersAdded fs fs') (h : fs'.createNew p = .ok fs'') :
    ∃ l, Placed fs p l fs'' := by
  rw [createNew] at h
  split at h
  · contradiction
  next l hfollow =>
  split at h
  · contradiction
  split at h
  · contradiction
  next hfree =>
  cases h
  exact ⟨l, .put fs' hfolders hfollow (Option.not_isSome_iff_eq_none.1 hfree)⟩

namespace Placed

theorem ne_root (h : Placed fs p l fs') : l ≠ [] := by
  cases h with
  | put between folders follow free =>
      rintro rfl
      cases free

theorem free (h : Placed fs p l fs') : fs.node? l = none := by
  cases h with
  | put between folders follow free => exact folders.free free

theorem node? (h : Placed fs p l fs') : fs'.node? l = some (.file []) := by
  have hl := h.ne_root
  cases h with
  | put between folders follow free => exact (node?_put between hl _ l).trans (if_pos rfl)

theorem kept (h : Placed fs p l fs') {l' : Location} (hn : fs.node? l' = some n) :
    fs'.node? l' = some n := by
  have hl := h.ne_root
  have hother : l' ≠ l := by
    rintro rfl
    cases hn.symm.trans h.free
  cases h with
  | put between folders follow free =>
      exact (node?_put between hl _ l').trans ((if_neg hother).trans (folders.kept hn))

/-- The path still leads to the file: a folder on the way is not where the file is. -/
theorem follow (h : Placed fs p l fs') : fs'.follow p = .ok l := by
  have hl := h.ne_root
  cases h with
  | put between folders follow free =>
      have hhere : (between.put l (.file [])).here = between.here := rfl
      refine follow_mono hhere ?_ follow
      intro l' hfolder
      have hother : l' ≠ l := by
        rintro rfl
        cases hfolder.symm.trans free
      exact (node?_put between hl _ l').trans ((if_neg hother).trans hfolder)

theorem erase (h : Placed fs p l fs') : FoldersAdded fs (fs'.erase l) := by
  have hl := h.ne_root
  cases h with
  | put between folders follow free =>
      apply folders.trans
      refine ⟨rfl, fun l' => .inl ?_⟩
      rw [node?_erase _ hl, node?_put _ hl]
      by_cases hat : l' = l
      · rw [if_pos hat, hat, free]
      · rw [if_neg hat, if_neg hat]

end Placed

theorem remove_of_follow (hfollow : fs.follow p = .ok l) {content : List UInt8}
    (hnode : fs.node? l = some (.file content)) : fs.remove p = .ok (fs.erase l) := by
  simp only [remove, hfollow, hnode]

end Files
end Telemetry
