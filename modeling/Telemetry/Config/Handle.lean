import Telemetry.Config.Agent
import Telemetry.Config.Collector
import Telemetry.Files.Tree
import Telemetry.Text.Utf8

/-!
# Handles — configurations that are read again

A handle keeps the snapshot of the last configuration that was loaded.  Reading the file again makes
a new snapshot, and only if the whole file is valid; otherwise the snapshot stays.  Snapshots are told
apart by the serial number of the load that made them.
-/

namespace Telemetry

/-- Configurations that can be read from a text. -/
class Loadable (α : Type) where
  parse : Resolver → String → Except ConfigError α
  /-- whether two configurations say the same -/
  alike : α → α → Bool

namespace CollectorConfig

/-- The collector's configuration with its series files named by their parts alone. -/
def sinkParts (c : CollectorConfig) : List (List (Option (Bool × List String))) :=
  c.sources.entries.map fun s => s.channels.entries.map fun ch => ch.sink.map FilePath.identity

def seriesFolders (c : CollectorConfig) : List FilePath :=
  c.sources.entries.flatMap fun s =>
    s.channels.entries.filterMap fun ch => ch.sink.bind FilePath.parent?

def withoutSinks (c : CollectorConfig) : CollectorConfig :=
  { c with
    sources :=
      ⟨c.sources.entries.map fun s =>
        { s with channels := ⟨s.channels.entries.map fun ch => { ch with sink := none }⟩ }⟩ }

end CollectorConfig

instance : Loadable AgentConfig where
  parse := AgentConfig.parse
  alike a b := a = b

instance : Loadable CollectorConfig where
  parse := CollectorConfig.parse
  alike a b := a.withoutSinks = b.withoutSinks ∧ a.sinkParts = b.sinkParts

def loadFile {α : Type} [Loadable α] (r : Resolver) (fs : Files) (path : FilePath) :
    Except ConfigError α :=
  match fs.read path with
  | .error f => .error (.unreadable path f.message)
  | .ok bytes =>
      match Utf8.decode bytes with
      | .error _ => .error (.unreadable path SystemFault.notText.message)
      | .ok text => Loadable.parse r text

/-! ## Snapshots and handles -/

structure Snapshot (α : Type) where
  value : α
  /-- the load that made it -/
  serial : Nat
  deriving DecidableEq

structure Handle (α : Type) where
  path : FilePath
  current : Snapshot α

namespace Handle

variable {α : Type} [Loadable α]

/-- Load a file for the first time. -/
def load (r : Resolver) (fs : Files) (path : FilePath) (serial : Nat) :
    Except ConfigError (Handle α) :=
  (loadFile r fs path).map fun value => ⟨path, ⟨value, serial⟩⟩

def reload (h : Handle α) (r : Resolver) (fs : Files) (serial : Nat) :
    Except ConfigError (Handle α) :=
  (loadFile r fs h.path).map fun value => { h with current := ⟨value, serial⟩ }

end Handle

/-! ## Histories of a handle -/

/-- A file that changes, a handle on it, and snapshots held on to. -/
structure HandleHistory (α : Type) where
  files : Files
  path : FilePath
  handle : Option (Handle α)
  held : List (Snapshot α)
  loads : Nat

namespace HandleHistory

variable {α : Type} [Loadable α]

inductive Step where
  | write (bytes : List UInt8)
  | remove
  | load
  | reload
  | hold
  deriving DecidableEq, Repr

def start (path : FilePath) : HandleHistory α :=
  ⟨Files.fresh, path, none, [], 0⟩

/-- One step; a failed load changes nothing but the count of loads. -/
def step (r : Resolver) (h : HandleHistory α) : Step → Option ConfigError × HandleHistory α
  | .write bytes =>
      match h.files.write h.path bytes with
      | .ok fs => (none, { h with files := fs })
      | .error f => (some (.unreadable h.path f.message), h)
  | .remove =>
      match h.files.remove h.path with
      | .ok fs => (none, { h with files := fs })
      | .error f => (some (.unreadable h.path f.message), h)
  | .load =>
      let h' := { h with loads := h.loads + 1 }
      match Handle.load r h.files h.path h.loads with
      | .ok handle => (none, { h' with handle := some handle })
      | .error e => (some e, h')
  | .reload =>
      match h.handle with
      | none => (none, h)
      | some handle =>
          let h' := { h with loads := h.loads + 1 }
          match handle.reload r h.files h.loads with
          | .ok handle => (none, { h' with handle := some handle })
          | .error e => (some e, h')
  | .hold =>
      match h.handle with
      | none => (none, h)
      | some handle => (none, { h with held := h.held ++ [handle.current] })

def run (r : Resolver) (h : HandleHistory α) (steps : List Step) : HandleHistory α :=
  steps.foldl (fun h s => (h.step r s).2) h

def current? (h : HandleHistory α) : Option (Snapshot α) :=
  h.handle.map Handle.current

end HandleHistory
end Telemetry
