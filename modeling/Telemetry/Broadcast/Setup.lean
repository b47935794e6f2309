import Telemetry.Address.Network
import Telemetry.Broadcast.Room
import Telemetry.Broadcast.Semaphore
import Telemetry.Files.Tree

/-!
# Setting a region up on a machine

A region takes a semaphore name, a file that backs it, and address space to map it.  Setting up is a
chain of system calls, each of which may fail: `Faults` says which.  Tearing down gives back the name
and the file; it may be asked for in any state and more than once.  The address space is given back
with the region itself.
-/

namespace Telemetry

/-! ## Machines -/

structure Machine where
  files : Files
  semaphores : List String
  process : Nat
  semaphoresMade : Nat
  regionsMade : Nat
  /-- bytes of address space that regions take -/
  mapped : Nat
  network : Network
  deriving DecidableEq

/-- A machine with an empty folder to work in, and without a network. -/
def Machine.fresh : Machine :=
  ⟨Files.fresh, [], 4711, 0, 0, 0, Network.offline⟩

inductive SystemCall where
  | openSemaphore
  | makeFolders
  | createFile
  | setLength
  | map
  | removeFile
  | unlinkSemaphore
  deriving DecidableEq, Repr

/-- Which system calls fail, and why. -/
abbrev Faults := SystemCall → Option SystemFault

def noFaults : Faults := fun _ => none

/-- The result of a call that may be made to fail. -/
def Faults.guard {α : Type} (faults : Faults) (call : SystemCall) (result : Except SystemFault α) :
    Except SystemFault α :=
  match faults call with
  | some f => .error f
  | none => result

/-! ## The file behind a region -/

/-- The file behind a region, and whether its path still names it. -/
structure Backing where
  path : FilePath
  capacity : Nat
  linked : Bool
  deriving DecidableEq, Repr

namespace Backing

/-- Bytes of the file, and of the address space that it is mapped to. -/
def extentFor (capacity : Nat) : Nat :=
  regionHeaderSize + capacity

/-- One more than the greatest length of a file. -/
def lengthLimit : Nat := 0x8000000000000000

def extent (size : Nat) : Except SystemFault Unit :=
  if size < lengthLimit then .ok () else .error .numberTooLarge

def addressSpace : Nat := 0x800000000000

/-- Take address space, if there is enough of it left. -/
def mapping (mapped size : Nat) : Except SystemFault Nat :=
  if mapped + size < addressSpace then .ok (mapped + size) else .error .outOfMemory

/-- Make the folders above a path. -/
def makeAbove (faults : Faults) (m : Machine) (path : FilePath) : Except SystemFault Files :=
  match path.parent? with
  | none => .ok m.files
  | some p => faults.guard .makeFolders (m.files.makeFolders p)

/-- Make the file behind a region at a path. -/
def createAt (faults : Faults) (m : Machine) (path : FilePath) (capacity : Nat) :
    Except BroadcastError Backing × Machine :=
  if capacity = 0 then (.error .zeroCapacity, m)
  else
    match makeAbove faults m path with
    | .error f => (.error (.region f), m)
    | .ok fs =>
        -- a file that is there already belongs to someone else
        match faults.guard .createFile (fs.createNew path) with
        | .error f => (.error (.region f), { m with files := fs })
        | .ok fs =>
            -- a fault from here on leaves the file behind
            let size := extentFor capacity
            match faults.guard .setLength (extent size) >>= fun () =>
                faults.guard .map (mapping m.mapped size) with
            | .error f => (.error (.region f), { m with files := fs })
            | .ok mapped => (.ok ⟨path, capacity, true⟩, { m with files := fs, mapped := mapped })

def remove (faults : Faults) (m : Machine) (b : Backing) :
    Except BroadcastError Unit × Backing × Machine :=
  if b.linked then
    -- the path is given up even if the removal fails
    let b := { b with linked := false }
    match faults.guard .removeFile (m.files.remove b.path) with
    | .ok fs => (.ok (), b, { m with files := fs })
    | .error .notFound => (.ok (), b, m)
    | .error f => (.error (.region f), b, m)
  else (.ok (), b, m)

/-- Give back the file and the address space. -/
def drop (faults : Faults) (m : Machine) (b : Backing) : Machine :=
  let m := (b.remove faults m).2.2
  { m with mapped := m.mapped - extentFor b.capacity }

/-- The folder for files that are removed as soon as they are in use. -/
def scratchFolder (fs : Files) : FilePath :=
  if fs.isFolder "/dev/shm" then "/dev/shm" else "/tmp"

/-- Make a file behind a region and remove it at once. -/
def create (faults : Faults) (m : Machine) (capacity : Nat) :
    Except BroadcastError Backing × Machine :=
  let path := s!"{scratchFolder m.files}/symux_{m.process}_{m.regionsMade}"
  match createAt faults { m with regionsMade := m.regionsMade + 1 } path capacity with
  | (.error e, m) => (.error e, m)
  | (.ok b, m) =>
      match b.remove faults m with
      | (.error e, b, m) => (.error e, b.drop faults m)
      | (.ok (), b, m) => (.ok b, m)

/-- Make the file behind a region, at a path or without one. -/
def make (faults : Faults) (m : Machine) (path : Option FilePath) (capacity : Nat) :
    Except BroadcastError Backing × Machine :=
  match path with
  | some p => createAt faults m p capacity
  | none => create faults m capacity

end Backing

/-! ## Set-up and teardown -/

/-- What of a region exists on its machine. -/
inductive Lifecycle where
  | free
  /-- the semaphore, and a region file with a name -/
  | keyed
  /-- the region as well -/
  | attached
  deriving DecidableEq, Repr

/-- What a region holds on its machine. -/
structure Installation where
  semaphore : Semaphore
  backing : Backing
  lifecycle : Lifecycle
  deriving DecidableEq, Repr

namespace Installation

def openSemaphore (faults : Faults) (m : Machine) : Except BroadcastError Semaphore × Machine :=
  let source : NameSource := ⟨m.process, m.semaphoresMade⟩
  let m := { m with semaphoresMade := m.semaphoresMade + 1 }
  match Semaphore.create "symux" source 0 with
  | .error e => (.error e, m)
  | .ok s =>
      if (faults .openSemaphore).isSome || m.semaphores.contains s.name then
        (.error (.semaphore "sem_open" s.name), m)
      else (.ok s, { m with semaphores := m.semaphores ++ [s.name] })

/-- Give back the name of a semaphore; whether that fails is not looked at. -/
def unlinkSemaphore (faults : Faults) (m : Machine) (s : Semaphore) : Machine :=
  if s.linked && (faults .unlinkSemaphore).isNone then
    { m with semaphores := m.semaphores.filter (· ≠ s.name) }
  else m

/-- Set up a region, over the file at a path or, without a path, over one that has no name. -/
def create (faults : Faults) (m : Machine) (path : Option FilePath) (capacity : Nat) :
    Except BroadcastError Installation × Machine :=
  match openSemaphore faults m with
  | (.error e, m) => (.error e, m)
  | (.ok s, m) =>
      match Backing.make faults m path capacity with
      -- a set-up that fails keeps no name
      | (.error e, m) => (.error e, unlinkSemaphore faults m s)
      | (.ok b, m) => (.ok ⟨s, b, .attached⟩, m)

def teardown (faults : Faults) (m : Machine) (i : Installation) : Installation × Machine :=
  let (i, m) := match i.lifecycle with
    | .attached =>
        let (_, b, m) := i.backing.remove faults m
        ({ i with backing := b, lifecycle := .keyed }, m)
    | _ => (i, m)
  match i.lifecycle with
  | .keyed =>
      ({ i with semaphore := i.semaphore.unlink, lifecycle := .free },
        unlinkSemaphore faults m i.semaphore)
  | _ => (i, m)

/-- Tear down, and give back the region itself. -/
def drop (faults : Faults) (m : Machine) (i : Installation) : Machine :=
  let (i, m) := i.teardown faults m
  unlinkSemaphore faults (i.backing.drop faults m) i.semaphore

end Installation
end Telemetry
