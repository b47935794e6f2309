import Telemetry.Broadcast.Setup
import Telemetry.Proofs.Files.Folders

/-!
# Installing — what a set-up takes, and what is given back

A set-up that fails gives its semaphore name back, leaves every file as it was, and makes nothing but
folders, unless a call behind the making of the region's file fails: that file stays.  After one that
succeeds, tearing down takes exactly the name and the file of the region away, however often it is
asked for (`Installation.create_tearDown`).
-/

namespace Telemetry

theorem Faults.guard_eq_ok_iff {α : Type} {faults : Faults} {call : SystemCall}
    {result : Except SystemFault α} {a : α} :
    faults.guard call result = .ok a ↔ faults call = none ∧ result = .ok a := by
  rw [guard]
  cases faults call with
  | none => simp
  | some f => simp

/-! ## The file behind a region -/

namespace Backing

variable {faults : Faults} {m : Machine} {path : FilePath} {capacity : Nat} {b : Backing}
  {l : Location}

structure Completes (faults : Faults) (mapped capacity : Nat) : Prop where
  setLength : faults .setLength = none
  map : faults .map = none
  length : extentFor capacity < lengthLimit
  room : mapped + extentFor capacity < addressSpace

theorem extent_eq_ok_iff {size : Nat} {u : Unit} : extent size = .ok u ↔ size < lengthLimit := by
  simp [extent]

theorem mapping_eq_ok_iff {mapped size total : Nat} :
    mapping mapped size = .ok total ↔ mapped + size < addressSpace ∧ mapped + size = total := by
  by_cases hroom : mapped + size < addressSpace
  · simp [mapping, hroom]
  · simp [mapping, hroom]

theorem completes_iff {mapped total : Nat} :
    (faults.guard .setLength (extent (extentFor capacity)) >>= fun () =>
        faults.guard .map (mapping mapped (extentFor capacity))) = .ok total
      ↔ Completes faults mapped capacity ∧ mapped + extentFor capacity = total := by
  simp only [bind_eq_ok_iff, Faults.guard_eq_ok_iff, extent_eq_ok_iff, mapping_eq_ok_iff]
  constructor
  · rintro ⟨-, ⟨hsetLength, hlength⟩, hmap, hroom, rfl⟩
    exact ⟨⟨hsetLength, hmap, hlength, hroom⟩, rfl⟩
  · rintro ⟨h, rfl⟩
    exact ⟨(), ⟨h.setLength, h.length⟩, h.map, h.room, rfl⟩

/-- How the making of a region's file ends. -/
inductive Ending (faults : Faults) (m : Machine) (path : FilePath) (capacity : Nat) :
    Except BroadcastError Backing × Machine → Prop where
  /-- before there is a file -/
  | refused (e : BroadcastError) (fs : Files) (folders : m.files.FoldersAdded fs) :
      Ending faults m path capacity (.error e, { m with files := fs })
  /-- when the file is there, and stays -/
  | abandoned (e : BroadcastError) (fs : Files) (l : Location) (placed : m.files.Placed path l fs)
      (stopped : ¬Completes faults m.mapped capacity) :
      Ending faults m path capacity (.error e, { m with files := fs })
  | mapped (fs : Files) (l : Location) (placed : m.files.Placed path l fs) :
      Ending faults m path capacity
        (.ok ⟨path, capacity, true⟩,
          { m with files := fs, mapped := m.mapped + extentFor capacity })

theorem foldersAdded_of_makeAbove {fs : Files} (h : makeAbove faults m path = .ok fs) :
    m.files.FoldersAdded fs := by
  rw [makeAbove] at h
  split at h
  · cases h
    exact .refl m.files
  · exact Files.foldersAdded_of_makeFolders (Faults.guard_eq_ok_iff.1 h).2

theorem createAt_ending (faults : Faults) (m : Machine) (path : FilePath) (capacity : Nat) :
    Ending faults m path capacity (createAt faults m path capacity) := by
  rw [createAt]
  split
  · exact .refused _ m.files (.refl m.files)
  split
  · exact .refused _ m.files (.refl m.files)
  next above habove =>
  have hfolders := foldersAdded_of_makeAbove habove
  split
  · exact .refused _ above hfolders
  next made hmade =>
  -- from here on there is a file
  obtain ⟨l, hplaced⟩ := Files.placed_of_createNew hfolders (Faults.guard_eq_ok_iff.1 hmade).2
  dsimp only
  split
  next f hstopped =>
    refine .abandoned _ made l hplaced fun hcompletes => ?_
    cases hstopped.symm.trans (completes_iff.2 ⟨hcompletes, rfl⟩)
  next mapped hdone =>
    obtain ⟨-, rfl⟩ := completes_iff.1 hdone
    exact .mapped made l hplaced

/-- Once the file is made, only calls that all succeed keep it from being left behind. -/
theorem createAt_of_stopped {above made : Files} (hcapacity : capacity ≠ 0)
    (habove : makeAbove faults m path = .ok above)
    (hmade : faults.guard .createFile (above.createNew path) = .ok made)
    (hstopped : ¬Completes faults m.mapped capacity) :
    ∃ e, createAt faults m path capacity = (.error e, { m with files := made }) := by
  rw [createAt, if_neg hcapacity]
  simp only [habove, hmade]
  split
  next f _ => exact ⟨.region f, rfl⟩
  next total hdone => exact absurd (completes_iff.1 hdone).1 hstopped

/-! ## Giving it back -/

theorem remove_of_unlinked (h : b.linked = false) : b.remove faults m = (.ok (), b, m) := by
  rw [remove, h]
  rfl

/-- Whatever comes of the removal, the path is given up. -/
theorem linked_remove : (b.remove faults m).2.1.linked = false := by
  rw [remove]
  split
  · dsimp only
    split
    · rfl
    · rfl
    · rfl
  next h => exact Bool.eq_false_iff.2 h

theorem remove_of_stands (hlinked : b.linked = true) (hfault : faults .removeFile = none)
    (hfollow : m.files.follow b.path = .ok l) {content : List UInt8}
    (hnode : m.files.node? l = some (.file content)) :
    b.remove faults m =
      (.ok (), { b with linked := false }, { m with files := m.files.erase l }) := by
  have hremove : faults.guard .removeFile (m.files.remove b.path) = .ok (m.files.erase l) :=
    Faults.guard_eq_ok_iff.2 ⟨hfault, Files.remove_of_follow hfollow hnode⟩
  rw [remove, if_pos hlinked]
  simp only [hremove]

/-- A removal that fails changes no file; that there is none any more is no failure. -/
theorem remove_of_fault (hlinked : b.linked = true) {f : SystemFault}
    (hfault : faults .removeFile = some f) :
    ∃ r, ∀ m, b.remove faults m = (r, { b with linked := false }, m) := by
  have hremove (m : Machine) : faults.guard .removeFile (m.files.remove b.path) = .error f := by
    rw [Faults.guard, hfault]
  by_cases hgone : f = .notFound
  · refine ⟨.ok (), fun m => ?_⟩
    rw [remove, if_pos hlinked]
    simp only [hremove, hgone]
  · refine ⟨.error (.region f), fun m => ?_⟩
    rw [remove, if_pos hlinked]
    simp only [hremove]

theorem drop_of_unlinked (h : b.linked = false) :
    b.drop faults m = { m with mapped := m.mapped - extentFor b.capacity } := by
  rw [drop, remove_of_unlinked h]

end Backing

/-! ## Names of semaphores -/

theorem Semaphore.linked_of_create {stem : String} {source : NameSource} {initial : Nat}
    {s : Semaphore} (h : create stem source initial = .ok s) : s.linked = true := by
  unfold create at h
  dsimp only at h
  split at h
  · exact nomatch h
  split at h
  · cases h
    rfl
  · exact nomatch h

namespace Installation

variable {faults : Faults} {m : Machine} {path : Option FilePath} {capacity : Nat}
  {i : Installation}

/-- What the opening of a semaphore comes to; a name that is opened was free. -/
inductive Opening (m : Machine) : Except BroadcastError Semaphore × Machine → Prop where
  | refused (e : BroadcastError) :
      Opening m (.error e, { m with semaphoresMade := m.semaphoresMade + 1 })
  | opened (s : Semaphore) (linked : s.linked = true) (free : s.name ∉ m.semaphores) :
      Opening m (.ok s,
        { m with
          semaphoresMade := m.semaphoresMade + 1
          semaphores := m.semaphores ++ [s.name] })

theorem opening_openSemaphore (faults : Faults) (m : Machine) :
    Opening m (openSemaphore faults m) := by
  rw [openSemaphore]
  split
  next e _ => exact .refused e
  next s hs =>
  split
  next => exact .refused _
  next hfree => exact .opened s (Semaphore.linked_of_create hs) fun hmem => hfree (by simp [hmem])

theorem unlinkSemaphore_of_unlinked {s : Semaphore} (h : s.linked = false) :
    unlinkSemaphore faults m s = m := by
  rw [unlinkSemaphore, h]
  rfl

theorem unlinkSemaphore_of_fault {s : Semaphore} {f : SystemFault}
    (h : faults .unlinkSemaphore = some f) : unlinkSemaphore faults m s = m := by
  rw [unlinkSemaphore, h]
  exact if_neg (by simp)

theorem filter_ne_concat {names : List String} {name : String} (h : name ∉ names) :
    (names ++ [name]).filter (· ≠ name) = names := by
  have hothers : names.filter (· ≠ name) = names := by
    rw [List.filter_eq_self]
    intro other hmem
    exact decide_eq_true fun heq => h (heq ▸ hmem)
  rw [List.filter_append, hothers]
  simp

theorem semaphores_unlinkSemaphore {s : Semaphore} (hlinked : s.linked = true)
    (hfault : faults .unlinkSemaphore = none) :
    (unlinkSemaphore faults m s).semaphores = m.semaphores.filter (· ≠ s.name) := by
  rw [unlinkSemaphore, hlinked, hfault]
  rfl

theorem unlinkSemaphore_keeps (faults : Faults) (m : Machine) (s : Semaphore) :
    (unlinkSemaphore faults m s).files = m.files ∧ (unlinkSemaphore faults m s).mapped = m.mapped := by
  rw [unlinkSemaphore]
  split
  · exact ⟨rfl, rfl⟩
  · exact ⟨rfl, rfl⟩

/-! ## Setting up -/

/-- What is left of a region that could not be set up. -/
structure Undone (faults : Faults) (path : Option FilePath) (capacity : Nat) (m m' : Machine) :
    Prop where
  kept : ∀ l n, m.files.node? l = some n → m'.files.node? l = some n
  mapped : m'.mapped = m.mapped
  /-- nothing but folders, if the calls behind the making of the file succeed -/
  files : Backing.Completes faults m.mapped capacity → (path = none → faults .removeFile = none) →
    m.files.FoldersAdded m'.files

/-- A region on a machine, and the file that it stands on. -/
structure Backed (faults : Faults) (path : Option FilePath) (capacity : Nat) (m : Machine)
    (b : Backing) (m' : Machine) : Prop where
  kept : ∀ l n, m.files.node? l = some n → m'.files.node? l = some n
  named : ∀ p, path = some p → b = ⟨p, capacity, true⟩ ∧ ∃ l, m.files.Placed p l m'.files
  unnamed : path = none →
    b.linked = false ∧ (faults .removeFile = none → m.files.FoldersAdded m'.files)

/-- What the making of a region's file comes to, at a path or without one. -/
inductive Making (faults : Faults) (path : Option FilePath) (capacity : Nat) (m : Machine) :
    Except BroadcastError Backing × Machine → Prop where
  | undone (e : BroadcastError) (m' : Machine) (semaphores : m'.semaphores = m.semaphores)
      (undone : Undone faults path capacity m m') : Making faults path capacity m (.error e, m')
  | backed (b : Backing) (m' : Machine) (semaphores : m'.semaphores = m.semaphores)
      (backed : Backed faults path capacity m b m') : Making faults path capacity m (.ok b, m')

variable {fs : Files} {l : Location} {p : FilePath}

theorem making_of_refused (e : BroadcastError) (regionsMade : Nat)
    (folders : m.files.FoldersAdded fs) :
    Making faults path capacity m (.error e, { m with files := fs, regionsMade := regionsMade }) :=
  .undone e _ rfl ⟨fun _ _ hn => folders.kept hn, rfl, fun _ _ => folders⟩

theorem making_of_abandoned (e : BroadcastError) (regionsMade : Nat)
    (placed : m.files.Placed p l fs) (stopped : ¬Backing.Completes faults m.mapped capacity) :
    Making faults path capacity m (.error e, { m with files := fs, regionsMade := regionsMade }) :=
  .undone e _ rfl ⟨fun _ _ hn => placed.kept hn, rfl, fun completes => absurd completes stopped⟩

theorem making_createAt (faults : Faults) (m : Machine) (p : FilePath) (capacity : Nat) :
    Making faults (some p) capacity m (Backing.createAt faults m p capacity) := by
  have hending := Backing.createAt_ending faults m p capacity
  generalize Backing.createAt faults m p capacity = result at hending
  cases hending with
  | refused e fs folders => exact making_of_refused e m.regionsMade folders
  | abandoned e fs l placed stopped => exact making_of_abandoned e m.regionsMade placed stopped
  | mapped fs l placed =>
      refine .backed _ _ rfl ⟨fun l n hn => placed.kept hn, ?_, nofun⟩
      intro p' hp
      cases hp
      exact ⟨rfl, l, placed⟩

theorem making_create (faults : Faults) (m : Machine) (capacity : Nat) :
    Making faults none capacity m (Backing.create faults m capacity) := by
  rw [Backing.create]
  generalize s!"{Backing.scratchFolder m.files}/symux_{m.process}_{m.regionsMade}" = p
  have hending :=
    Backing.createAt_ending faults { m with regionsMade := m.regionsMade + 1 } p capacity
  generalize Backing.createAt faults { m with regionsMade := m.regionsMade + 1 } p capacity = result
    at hending
  cases hending with
  | refused e fs folders => exact making_of_refused e (m.regionsMade + 1) folders
  | abandoned e fs l placed stopped =>
      exact making_of_abandoned e (m.regionsMade + 1) placed stopped
  | mapped fs l placed =>
      dsimp only
      cases hfault : faults .removeFile with
      | none =>
          -- the file is gone again at once
          rw [Backing.remove_of_stands
            (m := { m with
              files := fs
              mapped := m.mapped + Backing.extentFor capacity
              regionsMade := m.regionsMade + 1 })
            (b := ⟨p, capacity, true⟩) rfl hfault placed.follow placed.node?]
          have hfolders := placed.erase
          refine .backed _ _ rfl ⟨fun l n hn => hfolders.kept hn, nofun, fun _ => ⟨rfl, ?_⟩⟩
          exact fun _ => hfolders
      | some f =>
          obtain ⟨r, hremove⟩ := Backing.remove_of_fault (b := ⟨p, capacity, true⟩) rfl hfault
          rw [hremove]
          cases r with
          | error e =>
              dsimp only
              rw [Backing.drop_of_unlinked (b := ⟨p, capacity, false⟩) rfl]
              refine .undone e _ rfl ⟨fun l n hn => placed.kept hn, Nat.add_sub_cancel .., ?_⟩
              intro _ hremoved
              cases hfault.symm.trans (hremoved rfl)
          | ok =>
              refine .backed _ _ rfl ⟨fun l n hn => placed.kept hn, nofun, fun _ => ⟨rfl, ?_⟩⟩
              intro hremoved
              cases hfault.symm.trans hremoved

theorem making_make (faults : Faults) (m : Machine) (path : Option FilePath) (capacity : Nat) :
    Making faults path capacity m (Backing.make faults m path capacity) := by
  cases path with
  | some p => exact making_createAt faults m p capacity
  | none => exact making_create faults m capacity

/-- A region that has a path was just made, so that its path leads to a file. -/
theorem Backed.stands {b : Backing} {m' : Machine} (h : Backed faults path capacity m b m')
    (hlinked : b.linked = true) :
    ∃ l content, m'.files.follow b.path = .ok l ∧ m'.files.node? l = some (.file content) := by
  cases hpath : path with
  | none => cases hlinked.symm.trans (h.unnamed hpath).1
  | some p =>
      obtain ⟨rfl, l, hplaced⟩ := h.named p hpath
      exact ⟨l, [], hplaced.follow, hplaced.node?⟩

/-! ## Tearing down -/

def tearDownAll : List Faults → Installation × Machine → Installation × Machine
  | [], s => s
  | faults :: more, (i, m) => tearDownAll more (i.teardown faults m)

/-- Exactly the name of a region, and its file where it has one, are gone. -/
structure GivenBack (i : Installation) (before after : Machine) : Prop where
  semaphores : after.semaphores = before.semaphores.filter (· ≠ i.semaphore.name)
  named : i.backing.linked = true → ∀ l, before.files.follow i.backing.path = .ok l →
    after.files = before.files.erase l
  unnamed : i.backing.linked = false → after.files = before.files

/-- The path of a region, where it has one, still leads to a file. -/
def Stands (i : Installation) (m : Machine) : Prop :=
  i.backing.linked = true →
    ∃ l content, m.files.follow i.backing.path = .ok l ∧ m.files.node? l = some (.file content)

structure Torn (i : Installation) : Prop where
  lifecycle : i.lifecycle = .free
  semaphore : i.semaphore.linked = false
  backing : i.backing.linked = false

theorem teardown_attached (h : i.lifecycle = .attached) :
    i.teardown faults m =
      (⟨i.semaphore.unlink, (i.backing.remove faults m).2.1, .free⟩,
        unlinkSemaphore faults (i.backing.remove faults m).2.2 i.semaphore) := by
  rw [teardown, h]

theorem Torn.teardown (h : i.Torn) : i.teardown faults m = (i, m) := by
  rw [Installation.teardown, h.lifecycle]
  dsimp only
  rw [h.lifecycle]

theorem Torn.tearDownAll (h : i.Torn) (more : List Faults) :
    Installation.tearDownAll more (i, m) = (i, m) := by
  induction more with
  | nil => rfl
  | cons faults more ih => rw [Installation.tearDownAll, h.teardown, ih]

theorem Torn.drop (h : i.Torn) :
    i.drop faults m = { m with mapped := m.mapped - Backing.extentFor i.backing.capacity } := by
  rw [Installation.drop, h.teardown]
  dsimp only
  rw [unlinkSemaphore_of_unlinked h.semaphore, Backing.drop_of_unlinked h.backing]

theorem torn_teardown (h : i.lifecycle = .attached) : (i.teardown faults m).1.Torn := by
  rw [teardown_attached h]
  exact ⟨rfl, rfl, Backing.linked_remove⟩

theorem givenBack_teardown (hattached : i.lifecycle = .attached) (hlinked : i.semaphore.linked = true)
    (hstands : i.Stands m) (hremove : faults .removeFile = none)
    (hunlink : faults .unlinkSemaphore = none) : i.GivenBack m (i.teardown faults m).2 := by
  rw [teardown_attached hattached]
  cases hnamed : i.backing.linked with
  | false =>
      rw [Backing.remove_of_unlinked hnamed]
      refine ⟨semaphores_unlinkSemaphore hlinked hunlink, ?_, fun _ => (unlinkSemaphore_keeps ..).1⟩
      intro h
      cases hnamed.symm.trans h
  | true =>
      obtain ⟨l, content, hfollow, hnode⟩ := hstands hnamed
      rw [Backing.remove_of_stands hnamed hremove hfollow hnode]
      refine ⟨semaphores_unlinkSemaphore hlinked hunlink, ?_, ?_⟩
      · intro _ l' hfollow'
        cases hfollow.symm.trans hfollow'
        exact (unlinkSemaphore_keeps ..).1
      · intro h
        cases hnamed.symm.trans h

/-- The first call leaves nothing to those behind it, nor to the drop. -/
theorem givenBack_tearDownAll {later : Machine} {first : Faults} (hattached : i.lifecycle = .attached)
    (hlinked : i.semaphore.linked = true) (hstands : i.Stands later)
    (hremove : first .removeFile = none) (hunlink : first .unlinkSemaphore = none)
    (more : List Faults) (last : Faults) :
    let torn := tearDownAll (first :: more) (i, later)
    torn.1.lifecycle = .free ∧ i.GivenBack later torn.2
      ∧ i.GivenBack later (torn.1.drop last torn.2) := by
  have htorn : (i.teardown first later).1.Torn := torn_teardown hattached
  have hgiven : i.GivenBack later (i.teardown first later).2 :=
    givenBack_teardown hattached hlinked hstands hremove hunlink
  have hall : tearDownAll (first :: more) (i, later) = i.teardown first later :=
    htorn.tearDownAll more
  intro torn
  rw [show torn = i.teardown first later from hall, htorn.drop]
  exact ⟨htorn.lifecycle, hgiven, ⟨hgiven.semaphores, hgiven.named, hgiven.unnamed⟩⟩

/-- Set-ups that fail leave the names and the files of a machine as they were, and nothing new but
folders, unless a call behind the making of the region's file fails.  After one that succeeds, tearing
down, however often and with whatever comes of it behind the first time, takes exactly the name and
the file of the region away. -/
theorem create_tearDown (faults : Faults) (m : Machine) (path : Option FilePath) (capacity : Nat) :
    match create faults m path capacity with
    | (.error _, m') =>
        Undone faults path capacity m m'
          ∧ (∀ name ∈ m.semaphores, name ∈ m'.semaphores)
          ∧ (faults .unlinkSemaphore = none → m'.semaphores = m.semaphores)
    | (.ok i, m') =>
        i.lifecycle = .attached
          ∧ i.semaphore.name ∉ m.semaphores
          ∧ m'.semaphores = m.semaphores ++ [i.semaphore.name]
          ∧ Backed faults path capacity m i.backing m'
          ∧ i.Stands m'
          ∧ ∀ later first more last, i.Stands later →
              first .removeFile = none → first .unlinkSemaphore = none →
              let torn := tearDownAll (first :: more) (i, later)
              torn.1.lifecycle = .free ∧ i.GivenBack later torn.2
                ∧ i.GivenBack later (torn.1.drop last torn.2) := by
  rw [create]
  have hopening := opening_openSemaphore faults m
  generalize openSemaphore faults m = opening at hopening
  cases hopening with
  | refused e =>
      exact ⟨⟨fun l n hn => hn, rfl, fun _ _ => .refl m.files⟩, fun _ hname => hname, fun _ => rfl⟩
  | opened s hlinked hfresh =>
  dsimp only
  have hmaking := making_make faults { m with
    semaphoresMade := m.semaphoresMade + 1
    semaphores := m.semaphores ++ [s.name] } path capacity
  generalize Backing.make faults _ path capacity = result at hmaking
  cases hmaking with
  | undone e m' semaphores undone =>
      obtain ⟨hfiles, hmapped⟩ := unlinkSemaphore_keeps faults m' s
      have hback (hunlink : faults .unlinkSemaphore = none) :
          (unlinkSemaphore faults m' s).semaphores = m.semaphores := by
        rw [semaphores_unlinkSemaphore hlinked hunlink, semaphores]
        exact filter_ne_concat hfresh
      dsimp only
      refine ⟨⟨?_, hmapped.trans undone.mapped, ?_⟩, ?_, hback⟩
      · rw [hfiles]
        exact undone.kept
      · rw [hfiles]
        exact undone.files
      · intro name hname
        cases hunlink : faults .unlinkSemaphore with
        | none => rwa [hback hunlink]
        | some f =>
            rw [unlinkSemaphore_of_fault hunlink, semaphores]
            exact List.mem_append_left _ hname
  | backed b m' semaphores backed =>
      have hbacked : Backed faults path capacity m b m' :=
        ⟨backed.kept, backed.named, backed.unnamed⟩
      refine ⟨rfl, hfresh, semaphores, hbacked, backed.stands, ?_⟩
      intro later first more last hstands hremove hunlink
      exact givenBack_tearDownAll rfl hlinked hstands hremove hunlink more last

/-- A set-up that fails may leave a file behind: one that finds too little address space has made its
file by then. -/
theorem not_create_undone :
    ¬∀ (faults : Faults) (m : Machine) (path : Option FilePath) (capacity : Nat)
        (e : BroadcastError) (m' : Machine),
      capacity ≤ Backing.lengthLimit - 65 → create faults m path capacity = (.error e, m') →
        m'.semaphores = m.semaphores ∧ m.files.FoldersAdded m'.files := by
  intro hall
  -- another region takes more than half of the address space
  let m : Machine := { Machine.fresh with mapped := 76965813944384 }
  let opened : Machine := { m with semaphoresMade := 1, semaphores := ["/symux_4711_0"] }
  let made : Files := Files.fresh.put ["tmp", "work", "r"] (.file [])
  have habove : Backing.makeAbove noFaults opened "r" = .ok Files.fresh := by decide
  have hmade : noFaults.guard .createFile (Files.fresh.createNew "r") = .ok made := by decide
  have hstopped : ¬Backing.Completes noFaults opened.mapped 76965813944320 :=
    fun h => absurd h.room (by decide)
  obtain ⟨e, hleft⟩ := Backing.createAt_of_stopped (by decide) habove hmade hstopped
  have hopen : openSemaphore noFaults m = (.ok ⟨"/symux_4711_0", 0, true⟩, opened) := by
    decide +kernel
  have hfails : create noFaults m (some "r") 76965813944320
      = (.error e, unlinkSemaphore noFaults { opened with files := made } ⟨"/symux_4711_0", 0, true⟩) := by
    rw [create, hopen]
    dsimp only
    rw [Backing.make, hleft]
  obtain ⟨-, hfolders⟩ := hall noFaults m _ _ e _ (by decide) hfails
  exact (hfolders.node? ["tmp", "work", "r"]).elim (fun hsame => absurd hsame (by decide))
    fun hfolder => absurd hfolder.2 (by decide)

end Installation
end Telemetry
