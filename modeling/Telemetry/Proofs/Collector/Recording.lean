import Telemetry.Collector.Sink
import Telemetry.Proofs.Files.Locating
import Telemetry.Proofs.Text.Cut

/-!
# Recording — what series files hold

Updates are given to series one after another.  A stored update is one line more in the file that
its path leads to, and one that is not stored leaves every file as it is; so each file holds what it
held at first and the lines of the stored updates, in order (`Series.files_updateAll`).  Paths may
share a file, and a sink may be closed and opened anew in between.
-/

namespace Telemetry
namespace Series

def updateAll (s : Series) (us : List (FilePath × String)) : Series :=
  us.foldl (fun s u => (s.update u.1 u.2).2) s

theorem updateAll_append (s : Series) (us vs : List (FilePath × String)) :
    s.updateAll (us ++ vs) = (s.updateAll us).updateAll vs :=
  List.foldl_append

/-- The updates that are stored when they are given one after another. -/
def stored (s : Series) : List (FilePath × String) → List (FilePath × String)
  | [] => []
  | u :: us =>
      let (done, s) := s.update u.1 u.2
      if done then u :: s.stored us else s.stored us

/-- The lines of the updates whose paths lead to a location. -/
def linesAt (fs : Files) (l : Location) (us : List (FilePath × String)) : List UInt8 :=
  us.flatMap fun u => if fs.locate? u.1.identity = some l then line u.2 else []

theorem linesAt_concat (fs : Files) (l : Location) (us : List (FilePath × String))
    (u : FilePath × String) :
    linesAt fs l (us ++ [u])
      = linesAt fs l us ++ if fs.locate? u.1.identity = some l then line u.2 else [] := by
  rw [linesAt, List.flatMap_append, List.flatMap_singleton]
  rfl

theorem line_ne_nil (update : String) : line update ≠ [] := by
  rw [line, Utf8.toList_toUTF8, ← List.length_pos_iff, Utf8.length_encode,
    String.utf8ByteSize_append]
  exact Nat.lt_add_left _ (by decide)

theorem update_of_open {s : Series} {path : FilePath} {sink : Sink} (h : s.find? path = some sink)
    (text : String) : s.update path text = s.write path sink text := by
  rw [update, h]

theorem update_of_opened {s : Series} {path : FilePath} {l : Location} {files : Files}
    (h : s.find? path = none) (hopen : s.files.openForAppend path = .ok (l, files)) (text : String) :
    s.update path text
      = ({ s with files := files }.insert path (.file l)).write path (.file l) text := by
  rw [update, h, openFile, hopen]
  rfl

theorem update_of_refused {s : Series} {path : FilePath} {f : SystemFault} (h : s.find? path = none)
    (hopen : s.files.openForAppend path = .error f) (text : String) :
    s.update path text = (false, s) := by
  rw [update, h, openFile, hopen]
  rfl

/-- Series that started on the files `start` with no open sink and stored the updates `us`. -/
structure Recorded (start : Files) (us : List (FilePath × String)) (s : Series) : Prop where
  here_eq : s.files.here = start.here
  node?_eq : ∀ l, s.files.node? l = Node.appended (start.node? l) (linesAt start l us)
  located : ∀ u ∈ us, ∃ l, start.locate? u.1.identity = some l ∧ (s.files.node? l).isSome
  sinks_open : ∀ e ∈ s.sinks, ∃ l n, e.2 = .file l ∧ start.locate? e.1 = some l
    ∧ s.files.node? l = some n ∧ n ≠ .folder

namespace Recorded

variable {start : Files} {us : List (FilePath × String)} {s s' : Series} {path : FilePath}
  {text : String} {l : Location}

theorem onFiles (start : Files) : Recorded start [] (onFiles start) where
  here_eq := rfl
  node?_eq _ := (Node.appended_nil _).symm
  located := nofun
  sinks_open := nofun

theorem folder_iff (h : Recorded start us s) (l : Location) :
    s.files.node? l = some .folder ↔ start.node? l = some .folder := by
  rw [h.node?_eq, Node.appended_eq_iff (m := .folder) nofun]

theorem locate?_of_follow (h : Recorded start us s) (hfollow : s.files.follow path = .ok l) :
    start.locate? path.identity = some l :=
  Files.locate?_mono h.here_eq.symm (fun l => (h.folder_iff l).1) (Files.locate?_of_follow hfollow)

/-- An open sink is that of the file its path leads to. -/
theorem of_find? {sink : Sink} (h : Recorded start us s) (hfound : s.find? path = some sink) :
    ∃ l n, sink = .file l ∧ start.locate? path.identity = some l
      ∧ s.files.node? l = some n ∧ n ≠ .folder := by
  -- opened under a path of the same identity, which need not be this one
  obtain ⟨e, he, rfl⟩ := Option.map_eq_some_iff.1 hfound
  have hkey : e.1 = path.identity := by simpa using List.find?_some he
  rw [← hkey]
  exact h.sinks_open e (List.mem_of_find?_eq_some he)

theorem close (h : Recorded start us s) (path : FilePath) : Recorded start us (s.close path) where
  here_eq := h.here_eq
  node?_eq := h.node?_eq
  located := h.located
  sinks_open e he := h.sinks_open e (List.mem_filter.1 he).1

/-- A sink is opened for a file that is there already. -/
theorem insert {n : Node} (h : Recorded start us s) (hl : start.locate? path.identity = some l)
    (hnode : s.files.node? l = some n) (hfolder : n ≠ .folder) :
    Recorded start us (s.insert path (.file l)) where
  here_eq := h.here_eq
  node?_eq := h.node?_eq
  located := h.located
  sinks_open := by
    intro e he
    rcases List.mem_append.1 he with he | he
    · exact (h.close path).sinks_open e he
    · cases List.mem_singleton.1 he
      exact ⟨l, n, rfl, hl, hnode, hfolder⟩

/-- One line more, in the file that the path leads to. -/
theorem append (h : Recorded start us s) (hl : start.locate? path.identity = some l)
    (hfolder : s.files.node? l ≠ some .folder) (hhere : s'.files.here = s.files.here)
    (hnodes : ∀ l', s'.files.node? l'
      = Node.appended (s.files.node? l') (if l' = l then line text else []))
    (hsinks : ∀ e ∈ s'.sinks, e ∈ s.sinks ∨ e = (path.identity, .file l)) :
    Recorded start (us ++ [(path, text)]) s' := by
  -- appending removes nothing, and makes no folder of what was none
  have hkept : ∀ {l' n}, s.files.node? l' = some n → (s'.files.node? l').isSome := by
    intro l' n hn
    rw [hnodes, hn]
    exact Node.isSome_appended (.inl rfl)
  have hhas : (s'.files.node? l).isSome := by
    rw [hnodes, if_pos rfl]
    exact Node.isSome_appended (.inr (line_ne_nil text))
  have hopen : ∀ {l'}, (s'.files.node? l').isSome → s.files.node? l' ≠ some .folder →
      ∃ n, s'.files.node? l' = some n ∧ n ≠ .folder := by
    intro l' hsome hnot
    obtain ⟨n, hn⟩ := Option.isSome_iff_exists.1 hsome
    refine ⟨n, hn, ?_⟩
    rintro rfl
    rw [hnodes, Node.appended_eq_iff (m := .folder) nofun] at hn
    exact hnot hn
  refine ⟨hhere.trans h.here_eq, ?_, ?_, ?_⟩
  · intro l'
    have hwhere : (if l' = l then line text else [])
        = if start.locate? path.identity = some l' then line text else [] := by
      rw [hl]
      by_cases hat : l' = l
      · rw [if_pos hat, if_pos (congrArg some hat.symm)]
      · rw [if_neg hat, if_neg fun h => hat (Option.some.inj h).symm]
    rw [hnodes, h.node?_eq, Node.appended_appended, linesAt_concat, hwhere]
  · intro u hu
    rcases List.mem_append.1 hu with hu | hu
    · obtain ⟨l', hl', hsome⟩ := h.located u hu
      obtain ⟨n, hn⟩ := Option.isSome_iff_exists.1 hsome
      exact ⟨l', hl', hkept hn⟩
    · cases List.mem_singleton.1 hu
      exact ⟨l, hl, hhas⟩
  · intro e he
    rcases hsinks e he with he | rfl
    · obtain ⟨l', n, hfile, hl', hn, hnot⟩ := h.sinks_open e he
      obtain ⟨n', hn', hnot'⟩ := hopen (hkept hn) (by rw [hn]; exact fun h => hnot (Option.some.inj h))
      exact ⟨l', n', hfile, hl', hn', hnot'⟩
    · obtain ⟨n, hn, hnot⟩ := hopen hhas hfolder
      exact ⟨l, n, rfl, hl, hn, hnot⟩

/-- A write to an open sink is one line more, or the sink is closed. -/
theorem write (h : Recorded start us s) (hl : start.locate? path.identity = some l) {n : Node}
    (hnode : s.files.node? l = some n) (hfolder : n ≠ .folder) (text : String) :
    Recorded start (if (s.write path (.file l) text).1 then us ++ [(path, text)] else us)
      (s.write path (.file l) text).2 := by
  have hnot : s.files.node? l ≠ some .folder := by
    rw [hnode]
    exact fun h => hfolder (Option.some.inj h)
  rw [Series.write, appendLine]
  rcases Files.append_cases hnode hfolder (line text) with ⟨-, f, hf⟩ | ⟨files, hfiles, hhere, hnodes⟩
  · rw [hf]
    exact h.close path
  · rw [hfiles]
    exact h.append hl hnot hhere hnodes fun e he => .inl he

/-- A file that is made for a sink takes the line that it is made for. -/
theorem write_new (h : Recorded start us s) (hl : start.locate? path.identity = some l)
    (hnone : s.files.node? l = none) (text : String) {answer : Bool × Series}
    (hanswer : ({ s with files := s.files.put l (.file []) }.insert path (.file l)).write path
      (.file l) text = answer) :
    answer.1 = true ∧ Recorded start (us ++ [(path, text)]) answer.2 := by
  have hroot : l ≠ [] := by
    rintro rfl
    contradiction
  have hput := s.files.node?_put hroot (.file [])
  have happend : (s.files.put l (.file [])).append l (line text)
      = .ok ((s.files.put l (.file [])).put l (.file (line text))) := by
    rw [Files.append, hput, if_pos rfl]
    rfl
  rw [Series.write, appendLine, Series.insert, happend] at hanswer
  subst hanswer
  refine ⟨rfl, h.append hl (by rw [hnone]; rintro ⟨⟩) rfl ?_ ?_⟩
  · intro l'
    dsimp only
    rw [Files.node?_put _ hroot, hput]
    by_cases hat : l' = l
    · rw [if_pos hat, if_pos hat, hat, hnone, Node.appended, if_neg (line_ne_nil text)]
    · rw [if_neg hat, if_neg hat, if_neg hat, Node.appended_nil]
  · intro e he
    rcases List.mem_append.1 he with he | he
    · exact .inl (List.mem_filter.1 he).1
    · exact .inr (List.mem_singleton.1 he)

/-- An update is one line more if it is stored; otherwise every file stays as it is. -/
theorem update (h : Recorded start us s) (path : FilePath) (text : String) :
    Recorded start (if (s.update path text).1 then us ++ [(path, text)] else us)
      (s.update path text).2 := by
  cases hfound : s.find? path with
  | some sink =>
      obtain ⟨l, n, rfl, hl, hnode, hfolder⟩ := h.of_find? hfound
      rw [update_of_open hfound]
      exact h.write hl hnode hfolder text
  | none =>
      cases hopen : s.files.openForAppend path with
      | error f =>
          rw [update_of_refused hfound hopen]
          exact h
      | ok opened =>
          obtain ⟨l, files⟩ := opened
          rw [update_of_opened hfound hopen]
          obtain ⟨hfollow, -, hmade⟩ := Files.of_openForAppend hopen
          have hl := h.locate?_of_follow hfollow
          rcases hmade with ⟨hnone, rfl⟩ | ⟨n, hnode, hfolder, rfl⟩
          · obtain ⟨hdone, hnext⟩ := h.write_new hl hnone text rfl
            rw [if_pos hdone]
            exact hnext
          · exact (h.insert hl hnode hfolder).write hl hnode hfolder text

theorem updateAll (h : Recorded start us s) (vs : List (FilePath × String)) :
    Recorded start (us ++ s.stored vs) (s.updateAll vs) := by
  -- the updates stored so far grow with the series
  induction vs generalizing us s with
  | nil =>
      rw [stored, List.append_nil]
      exact h
  | cons v vs ih =>
      have hnext := ih (h.update v.1 v.2)
      rw [stored]
      dsimp only
      split at hnext
      · next hdone =>
        rw [if_pos hdone]
        rw [List.append_assoc] at hnext
        exact hnext
      · next hdone =>
        rw [if_neg hdone]
        exact hnext

/-- A write to an open sink is stored, unless the device is full. -/
theorem write_done {n : Node} (hnode : s.files.node? l = some n) (hfolder : n ≠ .folder)
    (hfull : n ≠ .device .full) (path : FilePath) (text : String) :
    (s.write path (.file l) text).1 = true := by
  rw [Series.write, appendLine]
  rcases Files.append_cases hnode hfolder (line text) with ⟨hn, -⟩ | ⟨files, hfiles, -⟩
  · exact absurd hn hfull
  · rw [hfiles]

/-- An update is stored if its path could be opened at the start and leads to no full device. -/
theorem update_done (h : Recorded start us s) {files : Files}
    (hopen : start.openForAppend path = .ok (l, files))
    (hfull : start.node? l ≠ some (.device .full)) (text : String) :
    (s.update path text).1 = true := by
  obtain ⟨hfollow, hslash, hmade⟩ := Files.of_openForAppend hopen
  have hl := Files.locate?_of_follow hfollow
  have hstart : start.node? l ≠ some .folder := by
    rcases hmade with ⟨hnone, -⟩ | ⟨n, hnode, hfolder, -⟩
    · rw [hnone]
      rintro ⟨⟩
    · rw [hnode]
      exact fun h => hfolder (Option.some.inj h)
  have hnow : s.files.node? l ≠ some .folder := fun hn => hstart ((h.folder_iff l).1 hn)
  have hfull' : s.files.node? l ≠ some (.device .full) := by
    rw [h.node?_eq]
    exact fun hn => hfull ((Node.appended_eq_iff (m := .device .full) nofun).1 hn)
  cases hfound : s.find? path with
  | some sink =>
      obtain ⟨l', n, rfl, hl', hnode, hfolder⟩ := h.of_find? hfound
      rw [hl] at hl'
      cases hl'
      rw [update_of_open hfound]
      exact write_done hnode hfolder (fun hn => hfull' (hn ▸ hnode)) path text
  | none =>
      have hagain : s.files.follow path = .ok l :=
        Files.follow_mono h.here_eq (fun l hn => (h.folder_iff l).2 hn) hfollow
      obtain ⟨files', hopened⟩ := Files.openForAppend_of_follow hagain hslash hnow
      rw [update_of_opened hfound hopened]
      obtain ⟨-, -, ⟨hnone, rfl⟩ | ⟨n, hnode, hfolder, rfl⟩⟩ := Files.of_openForAppend hopened
      · exact (h.write_new hl hnone text rfl).1
      · exact write_done (s := s.insert path (.file l)) hnode hfolder
          (fun hn => hfull' (hn ▸ hnode)) path text

/-- All updates are stored if all their paths could be opened at the start and none leads to a full
device. -/
theorem stored_eq_self (h : Recorded start us s) {vs : List (FilePath × String)}
    (hopen : ∀ v ∈ vs, ∃ l files, start.openForAppend v.1 = .ok (l, files)
      ∧ start.node? l ≠ some (.device .full)) : s.stored vs = vs := by
  induction vs generalizing us s with
  | nil => rfl
  | cons v vs ih =>
      obtain ⟨l, files, hl, hfull⟩ := hopen v List.mem_cons_self
      have hdone := h.update_done hl hfull v.2
      have hnext := h.update v.1 v.2
      rw [stored]
      dsimp only
      rw [if_pos hdone, ih hnext fun w hw => hopen w (List.mem_cons_of_mem v hw)]

end Recorded

/-- Each file holds what it held at first and the lines of the stored updates whose paths lead to
it. -/
theorem files_updateAll (start : Files) (us : List (FilePath × String)) :
    Recorded start ((Series.onFiles start).stored us) ((Series.onFiles start).updateAll us) :=
  (Recorded.onFiles start).updateAll us

end Series
end Telemetry
