import Telemetry.Config.Handle
import Telemetry.Proofs.Config.Loading
import Telemetry.Proofs.Files.Locating

/-!
# Reloading — the snapshots of a handle along its history

An open or a reload installs the configuration that the file offers, if it offers one
(`HandleHistory.Installs`); nothing else a step does concerns the current snapshot
(`HandleHistory.Stepped`).  So the current snapshot is that of the last step that installed one, and a
snapshot that is held on to is the current one for as long as the run is settled
(`HandleHistory.follow_snapshots`).  Names may come to be known otherwise from step to step.
-/

namespace Telemetry

/-- Configurations that documents describe, with the rules that they must keep. -/
class Checked (α : Type) [Loadable α] where
  /-- whether a document describes a configuration, valid or not -/
  Describes : Resolver → Toml.Entries → α → Prop
  Valid : α → Prop
  parse_eq_ok_iff : ∀ {r : Resolver} {text : String} {c : α},
    Loadable.parse r text = .ok c ↔ ∃ es, Toml.parse text = some es ∧ Describes r es c ∧ Valid c

instance : Checked AgentConfig where
  Describes r es c := ∃ file, AgentFile.ofEntries es = .ok file ∧ file.Describes r c
  Valid := AgentConfig.Valid
  parse_eq_ok_iff := AgentConfig.parse_eq_ok_iff

instance : Checked CollectorConfig where
  Describes r es c := ∃ file, CollectorFile.ofEntries es = .ok file ∧ file.Describes r c
  Valid := CollectorConfig.Valid
  parse_eq_ok_iff := CollectorConfig.parse_eq_ok_iff

variable {α : Type}

namespace HandleHistory

/-- A history in which nothing has been loaded yet, among any files. -/
def opening (files : Files) (path : FilePath) : HandleHistory α :=
  { start path with files := files }

/-- The handle is on the file of the history, and its snapshot was made by an earlier load. -/
structure Sound (h : HandleHistory α) : Prop where
  path : ∀ handle, h.handle = some handle → handle.path = h.path
  serial : ∀ handle, h.handle = some handle → handle.current.serial < h.loads

theorem sound_opening (files : Files) (path : FilePath) :
    (opening files path : HandleHistory α).Sound :=
  ⟨nofun, nofun⟩

/-- A later state of a history: what was held is held still. -/
structure Grows (h h' : HandleHistory α) : Prop where
  path : h'.path = h.path
  loads : h.loads ≤ h'.loads
  held : h.held <+: h'.held

theorem Grows.trans {h h' h'' : HandleHistory α} (hgrows : h.Grows h') (hgrows' : h'.Grows h'') :
    h.Grows h'' where
  path := hgrows'.path.trans hgrows.path
  loads := Nat.le_trans hgrows.loads hgrows'.loads
  held := hgrows.held.trans hgrows'.held

variable [Loadable α]

abbrev TimedStep : Type :=
  Resolver × Step

def next (h : HandleHistory α) (s : TimedStep) : HandleHistory α :=
  (h.step s.1 s.2).2

def follow (h : HandleHistory α) (steps : List TimedStep) : HandleHistory α :=
  steps.foldl next h

/-- A run with the same names throughout. -/
theorem run_eq_follow (r : Resolver) (h : HandleHistory α) (steps : List Step) :
    h.run r steps = h.follow (steps.map fun s => (r, s)) := by
  rw [run, follow, List.foldl_map]
  rfl

theorem follow_append (h : HandleHistory α) (before after : List TimedStep) :
    h.follow (before ++ after) = (h.follow before).follow after :=
  List.foldl_append

end HandleHistory

/-! ## What a file offers -/

variable [Loadable α] [Checked α]

/-- The file at a path can be read, and holds a document in UTF-8 that describes a valid
configuration. -/
def Files.Offers (fs : Files) (r : Resolver) (path : FilePath) (c : α) : Prop :=
  ∃ bytes text es, fs.read path = .ok bytes ∧ Utf8.decode bytes = .ok text
    ∧ Toml.parse text = some es ∧ Checked.Describes r es c ∧ Checked.Valid c

theorem Files.Offers.valid {fs : Files} {r : Resolver} {path : FilePath} {c : α}
    (h : fs.Offers r path c) : Checked.Valid c := by
  obtain ⟨-, -, -, -, -, -, -, hvalid⟩ := h
  exact hvalid

theorem loadFile_eq_ok_iff {r : Resolver} {fs : Files} {path : FilePath} {c : α} :
    loadFile r fs path = .ok c ↔ fs.Offers r path c := by
  unfold loadFile
  constructor
  · intro h
    split at h
    · contradiction
    next bytes hbytes =>
    split at h
    · contradiction
    next text htext =>
    obtain ⟨es, hes, hc⟩ := Checked.parse_eq_ok_iff.1 h
    exact ⟨bytes, text, es, hbytes, htext, hes, hc⟩
  · rintro ⟨bytes, text, es, hbytes, htext, hes, hc⟩
    simp only [hbytes, htext]
    exact Checked.parse_eq_ok_iff.2 ⟨es, hes, hc⟩

theorem Files.Offers.unique {fs : Files} {r : Resolver} {path : FilePath} {c c' : α}
    (h : fs.Offers r path c) (h' : fs.Offers r path c') : c = c' := by
  apply Except.ok.inj
  rw [← loadFile_eq_ok_iff.2 h, loadFile_eq_ok_iff.2 h']

theorem not_offers_of_loadFile {r : Resolver} {fs : Files} {path : FilePath} {e : ConfigError}
    (h : (loadFile r fs path : Except ConfigError α) = .error e) : ∀ c : α, ¬fs.Offers r path c := by
  intro c hc
  rw [loadFile_eq_ok_iff.2 hc] at h
  contradiction

namespace HandleHistory

/-! ## One step -/

/-- The step reads the file: it is an open, or a reload of what has been opened. -/
def Reads (h : HandleHistory α) : Step → Prop
  | .load => True
  | .reload => h.handle.isSome = true
  | _ => False

def Installs (h : HandleHistory α) (s : TimedStep) (c : α) : Prop :=
  h.Reads s.2 ∧ h.files.Offers s.1 h.path c

/-- What a step may answer and leave. -/
inductive Stepped (h : HandleHistory α) (r : Resolver) :
    Step → Option ConfigError × HandleHistory α → Prop
  | written (bytes : List UInt8) (answer : Option ConfigError) (files : Files) :
      Stepped h r (.write bytes) (answer, { h with files := files })
  | removed (answer : Option ConfigError) (files : Files) :
      Stepped h r .remove (answer, { h with files := files })
  | installed {s : Step} (c : α) (hinstalls : h.Installs (r, s) c) :
      Stepped h r s
        (none, { h with handle := some ⟨h.path, ⟨c, h.loads⟩⟩, loads := h.loads + 1 })
  | failed {s : Step} (e : ConfigError) (hreads : h.Reads s)
      (hnone : ∀ c : α, ¬h.files.Offers r h.path c) :
      Stepped h r s (some e, { h with loads := h.loads + 1 })
  | held (snapshot : Snapshot α) (hcurrent : h.current? = some snapshot) :
      Stepped h r .hold (none, { h with held := h.held ++ [snapshot] })
  /-- there is no handle to read the file for, or to hold a snapshot of -/
  | idle {s : Step} (hstep : s = .reload ∨ s = .hold) (hhandle : h.handle = none) :
      Stepped h r s (none, h)

variable {h : HandleHistory α}

theorem Sound.stepped (hsound : h.Sound) (r : Resolver) (s : Step) : h.Stepped r s (h.step r s) := by
  obtain ⟨files, path, handle, held, loads⟩ := h
  cases s with
  | write bytes =>
      rw [step]
      split
      next fs _ => exact .written bytes none fs
      next f _ => exact .written bytes (some (.unreadable path f.message)) files
  | remove =>
      rw [step]
      split
      next fs _ => exact .removed none fs
      next f _ => exact .removed (some (.unreadable path f.message)) files
  | load =>
      simp only [step, Handle.load]
      cases hload : (loadFile r files path : Except ConfigError α) with
      | error e => exact .failed e trivial fun c => not_offers_of_loadFile hload c
      | ok c => exact .installed c ⟨trivial, loadFile_eq_ok_iff.1 hload⟩
  | reload =>
      cases handle with
      | none => exact .idle (.inl rfl) rfl
      | some handle =>
          -- a reload reads the file that the handle was opened on
          have hpath : handle.path = path := hsound.path handle rfl
          simp only [step, Handle.reload, hpath]
          cases hload : (loadFile r files path : Except ConfigError α) with
          | error e => exact .failed e rfl fun c => not_offers_of_loadFile hload c
          | ok c => exact .installed c ⟨rfl, loadFile_eq_ok_iff.1 hload⟩
  | hold =>
      cases handle with
      | none => exact .idle (.inr rfl) rfl
      | some handle => exact .held handle.current rfl

/-- A step installs a configuration, as a snapshot of its own, or leaves the handle as it is. -/
theorem Sound.handle_next (hsound : h.Sound) (s : TimedStep) :
    (∃ c, h.Installs s c ∧ (h.next s).handle = some ⟨h.path, ⟨c, h.loads⟩⟩)
      ∨ (∀ c, ¬h.Installs s c) ∧ (h.next s).handle = h.handle := by
  obtain ⟨r, s⟩ := s
  have hstepped := hsound.stepped r s
  rw [next]
  generalize h.step r s = after at hstepped ⊢
  cases hstepped with
  | written => exact .inr ⟨fun c hinstalls => hinstalls.1.elim, rfl⟩
  | removed => exact .inr ⟨fun c hinstalls => hinstalls.1.elim, rfl⟩
  | installed c hinstalls => exact .inl ⟨c, hinstalls, rfl⟩
  | failed e hreads hnone => exact .inr ⟨fun c hinstalls => hnone c hinstalls.2, rfl⟩
  | held => exact .inr ⟨fun c hinstalls => hinstalls.1.elim, rfl⟩
  | idle hstep hhandle =>
      refine .inr ⟨fun c hinstalls => ?_, rfl⟩
      rcases hstep with rfl | rfl
      · simpa [Reads, hhandle] using hinstalls.1
      · exact hinstalls.1.elim

theorem Sound.grows_next (hsound : h.Sound) (s : TimedStep) : h.Grows (h.next s) := by
  obtain ⟨r, s⟩ := s
  have hstepped := hsound.stepped r s
  rw [next]
  generalize h.step r s = after at hstepped ⊢
  cases hstepped with
  | written => exact ⟨rfl, Nat.le_refl _, List.prefix_rfl⟩
  | removed => exact ⟨rfl, Nat.le_refl _, List.prefix_rfl⟩
  | installed => exact ⟨rfl, Nat.le_succ _, List.prefix_rfl⟩
  | failed => exact ⟨rfl, Nat.le_succ _, List.prefix_rfl⟩
  | held => exact ⟨rfl, Nat.le_refl _, List.prefix_append _ _⟩
  | idle => exact ⟨rfl, Nat.le_refl _, List.prefix_rfl⟩

theorem Sound.next (hsound : h.Sound) (s : TimedStep) : (h.next s).Sound := by
  obtain ⟨r, s⟩ := s
  have hstepped := hsound.stepped r s
  rw [HandleHistory.next]
  generalize h.step r s = after at hstepped ⊢
  cases hstepped with
  | written => exact ⟨hsound.path, hsound.serial⟩
  | removed => exact ⟨hsound.path, hsound.serial⟩
  | installed c =>
      refine ⟨?_, ?_⟩
      · rintro handle ⟨⟩
        rfl
      · rintro handle ⟨⟩
        exact Nat.lt_succ_self _
  | failed =>
      exact ⟨hsound.path, fun handle hhandle => Nat.lt_succ_of_lt (hsound.serial handle hhandle)⟩
  | held => exact ⟨hsound.path, hsound.serial⟩
  | idle => exact hsound

/-! ## Runs -/

def Settled (h : HandleHistory α) : List TimedStep → Prop
  | [] => True
  | s :: steps => (∀ c, ¬h.Installs s c) ∧ Settled (h.next s) steps

theorem settled_append {before after : List TimedStep} :
    h.Settled (before ++ after) ↔ h.Settled before ∧ (h.follow before).Settled after := by
  induction before generalizing h with
  | nil => simp [Settled, follow]
  | cons s before ih => simp [Settled, follow, ih, and_assoc]

theorem Sound.follow (hsound : h.Sound) (steps : List TimedStep) : (h.follow steps).Sound := by
  induction steps generalizing h with
  | nil => exact hsound
  | cons s steps ih => exact ih (hsound.next s)

theorem Sound.grows_follow (hsound : h.Sound) (steps : List TimedStep) :
    h.Grows (h.follow steps) := by
  induction steps generalizing h with
  | nil => exact ⟨rfl, Nat.le_refl _, List.prefix_rfl⟩
  | cons s steps ih => exact (hsound.grows_next s).trans (ih (hsound.next s))

/-- A run that is settled leaves the handle as it is; any other leaves the snapshot that its last
step to install something made. -/
theorem Sound.handle_follow (hsound : h.Sound) (steps : List TimedStep) :
    h.Settled steps ∧ (h.follow steps).handle = h.handle
      ∨ ∃ before s after c, steps = before ++ s :: after ∧ (h.follow before).Installs s c
        ∧ ((h.follow before).next s).Settled after
        ∧ (h.follow steps).handle = some ⟨h.path, ⟨c, (h.follow before).loads⟩⟩ := by
  -- the steps behind the first have the last word; only if they are settled does the first count
  induction steps generalizing h with
  | nil => exact .inl ⟨trivial, rfl⟩
  | cons s steps ih =>
      rcases ih (hsound.next s) with ⟨hsettled, hsame⟩ | hlater
      · rcases hsound.handle_next s with ⟨c, hinstalls, hhandle⟩ | ⟨hnone, hhandle⟩
        · exact .inr ⟨[], s, steps, c, rfl, hinstalls, hsettled, hsame.trans hhandle⟩
        · exact .inl ⟨⟨hnone, hsettled⟩, hsame.trans hhandle⟩
      · obtain ⟨before, s', after, c, rfl, hinstalls, hsettled, hhandle⟩ := hlater
        rw [(hsound.grows_next s).path] at hhandle
        exact .inr ⟨s :: before, s', after, c, rfl, hinstalls, hsettled, hhandle⟩

/-! ## Snapshots -/

/-- The current snapshot is the configuration that the last step to install one read. -/
theorem Sound.installed_of_current (hsound : h.Sound) (hnone : h.handle = none)
    {steps : List TimedStep} {snapshot : Snapshot α}
    (hcurrent : (h.follow steps).current? = some snapshot) :
    ∃ before s after, steps = before ++ s :: after
      ∧ (h.follow before).Installs s snapshot.value
      ∧ ((h.follow before).next s).Settled after := by
  rcases hsound.handle_follow steps with ⟨-, hsame⟩ | hlater
  · rw [current?, hsame, hnone] at hcurrent
    contradiction
  · obtain ⟨before, s, after, c, hsteps, hinstalls, hsettled, hlast⟩ := hlater
    rw [current?, hlast] at hcurrent
    cases hcurrent
    exact ⟨before, s, after, hsteps, hinstalls, hsettled⟩

theorem Sound.settled_of_current (hsound : h.Sound) {steps : List TimedStep}
    (hcurrent : (h.follow steps).current? = none) : h.Settled steps := by
  rcases hsound.handle_follow steps with ⟨hsettled, -⟩ | hlater
  · exact hsettled
  · obtain ⟨before, s, after, c, -, -, -, hlast⟩ := hlater
    rw [current?, hlast] at hcurrent
    contradiction

/-- A step that reads the file succeeds if the file offers a configuration, which it installs, and
else changes nothing but the count of loads. -/
theorem Sound.step_of_reads (hsound : h.Sound) (r : Resolver) {s : Step} (hreads : h.Reads s) :
    ((h.step r s).1 = none ↔ ∃ c : α, h.files.Offers r h.path c)
      ∧ (∀ c : α, h.files.Offers r h.path c → (h.step r s).2
        = { h with handle := some ⟨h.path, ⟨c, h.loads⟩⟩, loads := h.loads + 1 })
      ∧ ((h.step r s).1 ≠ none → (h.step r s).2 = { h with loads := h.loads + 1 }) := by
  have hstepped := hsound.stepped r s
  generalize h.step r s = after at hstepped ⊢
  cases hstepped with
  | written => exact hreads.elim
  | removed => exact hreads.elim
  | installed c hinstalls =>
      refine ⟨iff_of_true rfl ⟨c, hinstalls.2⟩, ?_, fun hfailed => absurd rfl hfailed⟩
      intro c' hoffers
      rw [hinstalls.2.unique hoffers]
  | failed e _ hnone =>
      refine ⟨iff_of_false nofun ?_, fun c hoffers => absurd hoffers (hnone c), fun _ => rfl⟩
      rintro ⟨c, hoffers⟩
      exact hnone c hoffers
  | held => exact hreads.elim
  | idle hstep hhandle =>
      rcases hstep with rfl | rfl
      · simp [Reads, hhandle] at hreads
      · exact hreads.elim

/-- The snapshot of a handle is the current one for as long as the run is settled. -/
theorem Sound.current_follow (hsound : h.Sound) {snapshot : Snapshot α}
    (hcurrent : h.current? = some snapshot) (steps : List TimedStep) :
    ∃ now, (h.follow steps).current? = some now
      ∧ (now.serial = snapshot.serial ↔ h.Settled steps)
      ∧ (now.serial = snapshot.serial → now = snapshot) := by
  obtain ⟨handle, hhandle, rfl⟩ := Option.map_eq_some_iff.1 hcurrent
  rcases hsound.handle_follow steps with ⟨hsettled, hsame⟩ | hlater
  · have hnow : (h.follow steps).current? = some handle.current := by
      simp [current?, hsame, hhandle]
    exact ⟨handle.current, hnow, iff_of_true rfl hsettled, fun _ => rfl⟩
  · obtain ⟨before, s, after, c, rfl, hinstalls, -, hlast⟩ := hlater
    -- a snapshot that was made later has a greater serial number
    have hserial : handle.current.serial < (h.follow before).loads :=
      Nat.lt_of_lt_of_le (hsound.serial handle hhandle) (hsound.grows_follow before).loads
    have hnever : (h.follow before).loads ≠ handle.current.serial := Nat.ne_of_gt hserial
    have hunsettled : ¬h.Settled (before ++ s :: after) := by
      intro hsettled
      exact (settled_append.1 hsettled).2.1 c hinstalls
    refine ⟨⟨c, (h.follow before).loads⟩, by simp [current?, hlast], ?_, ?_⟩
    · exact iff_of_false hnever hunsettled
    · exact fun hsame => absurd hsame hnever

/-- A snapshot that is held on to keeps its place among those held, and is as it was. -/
theorem Sound.held_follow (hsound : h.Sound) {snapshot : Snapshot α}
    (hcurrent : h.current? = some snapshot) (r : Resolver) (steps : List TimedStep) :
    ((h.next (r, .hold)).follow steps).held[h.held.length]? = some snapshot
      ∧ (h.next (r, .hold)).current? = some snapshot := by
  have hnext : h.next (r, .hold) = { h with held := h.held ++ [snapshot] } := by
    obtain ⟨handle, hhandle, rfl⟩ := Option.map_eq_some_iff.1 hcurrent
    simp [HandleHistory.next, step, hhandle]
  obtain ⟨rest, hrest⟩ := ((hsound.next (r, .hold)).grows_follow steps).held
  refine ⟨?_, by rw [hnext]; exact hcurrent⟩
  rw [← hrest, hnext]
  simp

/-- Along every run the current snapshot is the valid configuration of the last open or reload that
succeeded.  An open or a reload succeeds if the file then offers a configuration, and else changes
nothing.  A snapshot that is held on to stays as it is, and is the current one for as long as no open
or reload succeeds. -/
theorem follow_snapshots (files : Files) (path : FilePath) (steps : List TimedStep) :
    let opened : HandleHistory α := opening files path
    let h := opened.follow steps
    (∀ snapshot, h.current? = some snapshot → Checked.Valid snapshot.value
        ∧ ∃ before s after, steps = before ++ s :: after
          ∧ (opened.follow before).Installs s snapshot.value
          ∧ loadFile s.1 (opened.follow before).files path = .ok snapshot.value
          ∧ ((opened.follow before).next s).Settled after)
      ∧ (h.current? = none → opened.Settled steps)
      ∧ (∀ r s, h.Reads s →
        ((h.step r s).1 = none ↔ ∃ c : α, h.files.Offers r path c)
          ∧ (∀ c : α, h.files.Offers r path c → (h.step r s).2
            = { h with handle := some ⟨path, ⟨c, h.loads⟩⟩, loads := h.loads + 1 })
          ∧ ((h.step r s).1 ≠ none → (h.step r s).2 = { h with loads := h.loads + 1 }))
      ∧ ∀ before r after held, steps = before ++ (r, .hold) :: after →
        (opened.follow before).current? = some held →
        h.held[(opened.follow before).held.length]? = some held
          ∧ ∃ now, h.current? = some now
            ∧ (now.serial = held.serial ↔ ((opened.follow before).next (r, .hold)).Settled after)
            ∧ (now.serial = held.serial → now = held) := by
  intro opened h
  have hopened : opened.Sound := sound_opening files path
  have hpath (steps : List TimedStep) : (opened.follow steps).path = path :=
    (hopened.grows_follow steps).path
  refine ⟨?_, hopened.settled_of_current, ?_, ?_⟩
  · intro snapshot hcurrent
    obtain ⟨before, s, after, hsteps, hinstalls, hsettled⟩ :=
      hopened.installed_of_current rfl hcurrent
    have hload := loadFile_eq_ok_iff.2 hinstalls.2
    rw [hpath] at hload
    exact ⟨hinstalls.2.valid, before, s, after, hsteps, hinstalls, hload, hsettled⟩
  · intro r s hreads
    rw [← hpath steps]
    exact (hopened.follow steps).step_of_reads r hreads
  · intro before r after held hsteps hcurrent
    have hsound := hopened.follow before
    -- the run up to the hold, and on from it
    have hfollow : h = ((opened.follow before).next (r, .hold)).follow after := by
      simp only [h, hsteps, follow_append]
      rfl
    obtain ⟨hheld, hkept⟩ := hsound.held_follow hcurrent r after
    rw [hfollow]
    exact ⟨hheld, (hsound.next (r, .hold)).current_follow hkept after⟩

/-- A limit that leaves no room for a record makes the reload fail; the next document is taken
again. -/
theorem follow_snapshots_packetSize :
    let r := Resolver.literal
    let good := "interval_secs = 5\n"
    let bad := "interval_secs = 1\nmax_packet_size = 4\n"
    let better := "interval_secs = 1\n"
    let front : List TimedStep := [(r, .write good.toUTF8.toList), (r, .load)]
    let back : List TimedStep := [(r, .write bad.toUTF8.toList), (r, .reload),
      (r, .write better.toUTF8.toList), (r, .reload)]
    let opened : HandleHistory AgentConfig := opening .fresh "a"
    let h := opened.follow (front ++ (r, .hold) :: back)
    let first : AgentConfig := ⟨5, none, ⟨[]⟩⟩
    let second : AgentConfig := ⟨1, none, ⟨[]⟩⟩
    (opened.follow front).current? = some ⟨first, 0⟩ ∧ h.current? = some ⟨second, 2⟩
      ∧ second.Valid
      ∧ h.held[0]? = some ⟨first, 0⟩
      ∧ ¬((opened.follow front).next (r, .hold)).Settled back
      ∧ ((h.step r .reload).1 = none ↔ ∃ c : AgentConfig, h.files.Offers r "a" c) := by
  intro r good bad better front back opened h first second
  -- the file as each of the three writes leaves it, and what a load finds there
  obtain ⟨fs, hwrite, hwritable, hread⟩ := Files.writable_fresh.write good.toUTF8.toList
  obtain ⟨fs', hwrite', hwritable', hread'⟩ := hwritable.write bad.toUTF8.toList
  obtain ⟨fs'', hwrite'', -, hread''⟩ := hwritable'.write better.toUTF8.toList
  have hgood : loadFile r fs "a" = .ok first := by
    rw [loadFile, hread]
    exact ok_of_toOption (by decide +kernel)
  obtain ⟨e, hbad⟩ : ∃ e, (loadFile r fs' "a" : Except ConfigError AgentConfig) = .error e := by
    rw [loadFile, hread']
    exact error_of_toOption (by decide +kernel)
  have hbetter : loadFile r fs'' "a" = .ok second := by
    rw [loadFile, hread'']
    exact ok_of_toOption (by decide +kernel)
  have hfront : opened.follow front = ⟨fs, "a", some ⟨"a", ⟨first, 0⟩⟩, [], 1⟩ := by
    simp only [opened, front, follow, List.foldl_cons, List.foldl_nil, next, step, opening, start,
      hwrite, Handle.load, hgood, Except.map]
  have hback : h = ⟨fs'', "a", some ⟨"a", ⟨second, 2⟩⟩, [⟨first, 0⟩], 3⟩ := by
    simp only [h, follow_append, hfront]
    simp only [back, follow, List.foldl_cons, List.foldl_nil, next, step, hwrite', hwrite'',
      Handle.reload, hbad, hbetter, Except.map, List.nil_append]
  have hcurrent : (opened.follow front).current? = some ⟨first, 0⟩ := by
    rw [hfront]
    rfl
  have hlast : h.current? = some ⟨second, 2⟩ := by
    rw [hback]
    rfl
  have hreads : h.Reads .reload := by
    rw [hback]
    rfl
  obtain ⟨hsnapshot, -, hreload, hheld⟩ :=
    @follow_snapshots AgentConfig _ _ .fresh "a" (front ++ (r, .hold) :: back)
  obtain ⟨hkept, now, hnow, hsettled, -⟩ := hheld front r back ⟨first, 0⟩ rfl hcurrent
  have hother : ¬now.serial = 0 := by
    rw [hlast] at hnow
    cases hnow
    decide
  refine ⟨hcurrent, hlast, (hsnapshot _ hlast).1, ?_, ?_, ?_⟩
  · rw [hfront] at hkept
    exact hkept
  · exact fun h => hother (hsettled.2 h)
  · exact (hreload r .reload hreads).1

end HandleHistory
end Telemetry
