import Telemetry.Files.Tree
import Telemetry.Proofs.Steps

/-!
# Locating — where paths lead and what is written there

Where a path leads hangs on the folders of a tree, and of the path only on what tells it apart from
others (`Files.locate?_of_follow`, `Files.locate?_mono`).  Appending changes no folder: it makes the
file or lets it grow, and a device stays as it is (`Files.append_cases`).  Writing to an ordinary file
replaces what it holds (`Files.Writable.write`).
-/

namespace Telemetry

/-- What is at a location once bytes were appended to what was there; without bytes no file is
made. -/
def Node.appended : Option Node → List UInt8 → Option Node
  | none, bytes => if bytes = [] then none else some (.file bytes)
  | some (.file content), bytes => some (.file (content ++ bytes))
  | some n, _ => some n

namespace Node

@[simp] theorem appended_nil (n : Option Node) : appended n [] = n := by
  rcases n with _ | _ | content | d
  · rfl
  · rfl
  · exact congrArg (some ∘ Node.file) (List.append_nil content)
  · rfl

theorem appended_appended (n : Option Node) (bytes more : List UInt8) :
    appended (appended n bytes) more = appended n (bytes ++ more) := by
  rcases n with _ | _ | content | d
  · cases bytes with
    | nil => rfl
    | cons b bytes => rfl
  · rfl
  · exact congrArg (some ∘ Node.file) (List.append_assoc content bytes more)
  · rfl

/-- Appending makes and changes files only. -/
theorem appended_eq_iff {n : Option Node} {bytes : List UInt8} {m : Node}
    (hm : ∀ content, m ≠ .file content) : appended n bytes = some m ↔ n = some m := by
  have hfile (content : List UInt8) : some (Node.file content) ≠ some m := by
    intro h
    exact hm content (Option.some.inj h).symm
  rcases n with _ | _ | content | d
  · cases bytes with
    | nil => exact Iff.rfl
    | cons b bytes => exact iff_of_false (hfile _) nofun
  · exact Iff.rfl
  · exact iff_of_false (hfile _) (hfile _)
  · exact Iff.rfl

theorem isSome_appended {n : Option Node} {bytes : List UInt8} (h : n.isSome ∨ bytes ≠ []) :
    (appended n bytes).isSome := by
  rcases n with _ | _ | content | d
  · rw [appended, if_neg (h.resolve_left nofun)]
    rfl
  · rfl
  · rfl
  · rfl

end Node

namespace Files

variable {fs fs' : Files} {l l' : Location} {n : Node} {p : FilePath}

theorem node?_put (fs : Files) (hl : l ≠ []) (n : Node) (l' : Location) :
    (fs.put l n).node? l' = if l' = l then some n else fs.node? l' := by
  rw [node?, node?, put]
  by_cases hroot : l' = []
  · have hother : l' ≠ l := fun h => hl (h.symm.trans hroot)
    rw [if_pos hroot, if_pos hroot, if_neg hother]
  rw [if_neg hroot, if_neg hroot, List.find?_append]
  by_cases hsame : l' = l
  · have hgone : (fs.nodes.filter fun e => e.1 ≠ l).find? (fun e => e.1 = l') = none := by
      rw [List.find?_eq_none]
      intro e he
      simpa [hsame] using (List.mem_filter.1 he).2
    rw [if_pos hsame, hgone, Option.none_or, List.find?_cons_of_pos (by simp [hsame])]
    rfl
  · have hkept : (fs.nodes.filter fun e => e.1 ≠ l).find? (fun e => e.1 = l')
        = fs.nodes.find? fun e => e.1 = l' := by
      rw [List.find?_filter]
      congr 1
      funext e
      by_cases he : e.1 = l' <;> simp [he, hsame]
    rw [if_neg hsame, hkept, List.find?_cons_of_neg (by simp [Ne.symm hsame]), List.find?_nil,
      Option.or_none]

/-! ## Where paths lead -/

/-- Where the paths with an identity lead, if they lead anywhere. -/
def locate? (fs : Files) (identity : Bool × List String) : Option Location :=
  (identity.2.foldlM fs.enter (if identity.1 then [] else fs.here)).toOption

theorem locate?_eq_some_iff {identity : Bool × List String} :
    fs.locate? identity = some l
      ↔ identity.2.foldlM fs.enter (if identity.1 then [] else fs.here) = .ok l :=
  ⟨ok_of_toOption, congrArg Except.toOption⟩

theorem enter_eq_ok_iff {part : String} :
    fs.enter l part = .ok l' ↔
      fs.node? l = some .folder ∧ part.utf8ByteSize ≤ longestPart
        ∧ (if part = "." then l else if part = ".." then l.dropLast else l ++ [part]) = l' := by
  rw [enter]
  split
  · next hnode =>
    rw [hnode]
    exact iff_of_false nofun fun h => nomatch h.1
  · next hnode =>
    by_cases hlong : longestPart < part.utf8ByteSize
    · rw [if_pos hlong]
      exact iff_of_false nofun fun h => absurd h.2.1 (Nat.not_le.2 hlong)
    · rw [if_neg hlong, ← apply_ite Except.ok, ← apply_ite Except.ok]
      exact ⟨fun h => ⟨hnode, Nat.not_lt.1 hlong, Except.ok.inj h⟩, fun h => congrArg _ h.2.2⟩
  · next n hfolder hnode =>
    rw [hnode]
    exact iff_of_false nofun fun h => hfolder (Option.some.inj h.1)

/-- Dots may be left out of the parts of a path that leads somewhere. -/
theorem foldlM_enter_filter {parts : List String} (h : parts.foldlM fs.enter l = .ok l') :
    (parts.filter (· != ".")).foldlM fs.enter l = .ok l' := by
  induction parts generalizing l with
  | nil => exact h
  | cons part parts ih =>
      rw [List.foldlM_cons] at h
      obtain ⟨next, hpart, h⟩ := ok_of_bind h
      by_cases hdot : part = "."
      · have hstay : next = l := by
          rw [← (enter_eq_ok_iff.1 hpart).2.2, if_pos hdot]
        rw [List.filter_cons_of_neg (by simpa using hdot)]
        exact ih (hstay ▸ h)
      · rw [List.filter_cons_of_pos (by simpa using hdot), List.foldlM_cons, hpart]
        exact ih h

theorem follow_eq_ok_iff :
    fs.follow p = .ok l ↔
      (¬p.toList.contains '\x00' = true ∧ ¬p.isEmpty = true ∧ ¬pathLimit ≤ p.utf8ByteSize)
        ∧ p.parts.foldlM fs.enter (if p.isAbsolute then [] else fs.here) = .ok l := by
  rw [follow]
  split
  · next hnul => exact iff_of_false nofun fun h => h.1.1 hnul
  next hnul =>
  split
  · next hempty => exact iff_of_false nofun fun h => h.1.2.1 hempty
  next hempty =>
  split
  · next hlong => exact iff_of_false nofun fun h => h.1.2.2 hlong
  next hlong => exact (and_iff_right ⟨hnul, hempty, hlong⟩).symm

/-- A path that can be followed leads where its identity leads. -/
theorem locate?_of_follow (h : fs.follow p = .ok l) : fs.locate? p.identity = some l := by
  rw [locate?_eq_some_iff]
  have hparts := (follow_eq_ok_iff.1 h).2
  rw [FilePath.identity]
  split
  · next rest habsolute hdot =>
    -- the first dot stays
    rw [habsolute, hdot, List.foldlM_cons] at hparts
    obtain ⟨next, hhere, hparts⟩ := ok_of_bind hparts
    rw [List.foldlM_cons, hhere]
    exact foldlM_enter_filter hparts
  · exact foldlM_enter_filter hparts

theorem enter_mono (hfolders : ∀ l, fs.node? l = some .folder → fs'.node? l = some .folder)
    {part : String} (h : fs.enter l part = .ok l') : fs'.enter l part = .ok l' := by
  obtain ⟨hfolder, hrest⟩ := enter_eq_ok_iff.1 h
  exact enter_eq_ok_iff.2 ⟨hfolders l hfolder, hrest⟩

/-- A path leads to the same place in a tree with the same folders. -/
theorem locate?_mono (hhere : fs'.here = fs.here)
    (hfolders : ∀ l, fs.node? l = some .folder → fs'.node? l = some .folder)
    {identity : Bool × List String} (h : fs.locate? identity = some l) :
    fs'.locate? identity = some l := by
  rw [locate?_eq_some_iff] at h ⊢
  rw [hhere]
  exact foldlM_mono (enter_mono hfolders) h

theorem follow_mono (hhere : fs'.here = fs.here)
    (hfolders : ∀ l, fs.node? l = some .folder → fs'.node? l = some .folder)
    (h : fs.follow p = .ok l) : fs'.follow p = .ok l := by
  rw [follow_eq_ok_iff] at h ⊢
  rw [hhere]
  exact ⟨h.1, foldlM_mono (enter_mono hfolders) h.2⟩

/-! ## Opening and appending -/

theorem of_openForAppend (h : fs.openForAppend p = .ok (l, fs')) :
    fs.follow p = .ok l ∧ p.endsInSlash = false
      ∧ (fs.node? l = none ∧ fs' = fs.put l (.file [])
        ∨ ∃ n, fs.node? l = some n ∧ n ≠ .folder ∧ fs' = fs) := by
  rw [openForAppend] at h
  split at h
  · contradiction
  next target hfollow =>
  split at h
  · contradiction
  next hslash =>
  rw [Bool.not_eq_true] at hslash
  split at h
  · next hnone =>
    cases h
    exact ⟨hfollow, hslash, .inl ⟨hnone, rfl⟩⟩
  · contradiction
  · next n hfolder hnode =>
    cases h
    exact ⟨hfollow, hslash, .inr ⟨n, hnode, hfolder, rfl⟩⟩

/-- What is no folder can be opened. -/
theorem openForAppend_of_follow (hfollow : fs.follow p = .ok l) (hslash : p.endsInSlash = false)
    (hfolder : fs.node? l ≠ some .folder) : ∃ fs', fs.openForAppend p = .ok (l, fs') := by
  rw [openForAppend, hfollow]
  dsimp only
  rw [hslash, if_neg Bool.false_ne_true]
  split
  · exact ⟨_, rfl⟩
  · contradiction
  · exact ⟨_, rfl⟩

/-- Appending to what is no folder succeeds, unless it is a full device. -/
theorem append_cases (hnode : fs.node? l = some n) (hfolder : n ≠ .folder) (bytes : List UInt8) :
    (n = .device .full ∧ ∃ f, fs.append l bytes = .error f)
      ∨ ∃ fs', fs.append l bytes = .ok fs' ∧ fs'.here = fs.here
        ∧ ∀ l', fs'.node? l' = Node.appended (fs.node? l') (if l' = l then bytes else []) := by
  have hl : l ≠ [] := by
    rintro rfl
    cases hnode
    exact hfolder rfl
  have hsame : ∀ l', l' ≠ l →
      fs.node? l' = Node.appended (fs.node? l') (if l' = l then bytes else []) := by
    intro l' hother
    rw [if_neg hother, Node.appended_nil]
  rw [append, hnode]
  cases n with
  | folder => exact absurd rfl hfolder
  | file content =>
      refine .inr ⟨_, rfl, rfl, fun l' => ?_⟩
      rw [node?_put fs hl]
      by_cases hat : l' = l
      · subst hat
        rw [if_pos rfl, if_pos rfl, hnode, Node.appended]
      · rw [if_neg hat]
        exact hsame l' hat
  | device d =>
      cases d with
      | full => exact .inl ⟨rfl, .noSpace, rfl⟩
      | sink =>
          refine .inr ⟨fs, rfl, rfl, fun l' => ?_⟩
          by_cases hat : l' = l
          · rw [hat, hnode, Node.appended]
            nofun
          · exact hsame l' hat

/-! ## Writing -/

/-- A path to an ordinary file, or to room for one. -/
structure Writable (fs : Files) (p : FilePath) (l : Location) : Prop where
  follow : fs.follow p = .ok l
  slash : p.endsInSlash = false
  plain : ∀ n, fs.node? l = some n → ∃ content, n = .file content

/-- Where a fresh tree is entered, there is room for a file. -/
theorem writable_fresh : fresh.Writable "a" ["tmp", "work", "a"] where
  follow := by decide
  slash := by decide
  plain := by
    intro n hn
    have hnone : fresh.node? ["tmp", "work", "a"] = none := by decide
    rw [hnone] at hn
    contradiction

theorem Writable.put (h : fs.Writable p l) (bytes : List UInt8) :
    (fs.put l (.file bytes)).Writable p l
      ∧ (fs.put l (.file bytes)).node? l = some (.file bytes) := by
  have hl : l ≠ [] := by
    rintro rfl
    obtain ⟨content, hfile⟩ := h.plain .folder rfl
    contradiction
  have hnode : (fs.put l (.file bytes)).node? l = some (.file bytes) := by
    rw [node?_put fs hl, if_pos rfl]
  have hfolders : ∀ l', fs.node? l' = some .folder →
      (fs.put l (.file bytes)).node? l' = some .folder := by
    intro l' hfolder
    have hother : l' ≠ l := by
      rintro rfl
      obtain ⟨content, hfile⟩ := h.plain .folder hfolder
      contradiction
    rw [node?_put fs hl, if_neg hother]
    exact hfolder
  have hhere : (fs.put l (.file bytes)).here = fs.here := rfl
  refine ⟨⟨follow_mono hhere hfolders h.follow, h.slash, ?_⟩, hnode⟩
  intro n hn
  rw [hnode] at hn
  exact ⟨bytes, (Option.some.inj hn).symm⟩

/-- What is written is read back, where it was written. -/
theorem Writable.write (h : fs.Writable p l) (bytes : List UInt8) :
    ∃ fs', fs.write p bytes = .ok fs' ∧ fs'.Writable p l ∧ fs'.read p = .ok bytes := by
  have hread {fs : Files} (h : fs.Writable p l) :
      (fs.put l (.file bytes)).read p = .ok bytes := by
    obtain ⟨hwritable, hnode⟩ := h.put bytes
    rw [read, hwritable.follow]
    simp [hnode, h.slash]
  rw [Files.write, openForAppend, h.follow]
  simp only [h.slash, Bool.false_eq_true, if_false]
  cases hnode : fs.node? l with
  | none =>
      obtain ⟨hopened, hempty⟩ := h.put []
      simp only [hempty]
      exact ⟨_, rfl, (hopened.put bytes).1, hread hopened⟩
  | some n =>
      obtain ⟨content, rfl⟩ := h.plain n hnode
      simp only [hnode]
      exact ⟨_, rfl, (h.put bytes).1, hread h⟩

end Files
end Telemetry
