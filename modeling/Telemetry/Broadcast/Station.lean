import Telemetry.Broadcast.Setup

/-!
# Station — a region in use on a machine

Joins a `Room` with what it holds on its machine.
-/

namespace Telemetry

structure Station where
  machine : Machine
  installation : Installation
  room : Room

namespace Station

def create (m : Machine) (path : Option FilePath) (capacity : Nat) :
    Except BroadcastError Station :=
  match Installation.create noFaults m path capacity with
  | (.error e, _) => .error e
  | (.ok i, m) => .ok ⟨m, i, Room.fresh capacity i.semaphore.name⟩

inductive Step where
  | room (s : Room.Step)
  | teardown
  /-- set up another region at the same path, and give it back at once -/
  | rival
  deriving DecidableEq, Repr

def teardown (s : Station) : Station :=
  let (i, m) := s.installation.teardown noFaults s.machine
  { s with installation := i, machine := m }

def rival (s : Station) : Option BroadcastError × Station :=
  match Installation.create noFaults s.machine (some s.installation.backing.path)
      s.room.region.capacity with
  | (.error e, m) => (some e, { s with machine := m })
  | (.ok i, m) => (none, { s with machine := i.drop noFaults m })

/-- One step; a reader's call that would block does nothing. -/
def step (s : Station) : Step → Room.Reply × Station
  | .room step =>
      let (reply, room) := s.room.attempt step
      (reply, { s with room := room })
  | .teardown => (.nothing, s.teardown)
  | .rival =>
      match s.rival with
      | (some e, s) => (.failed e, s)
      | (none, s) => (.nothing, s)

def hasFile (s : Station) : Bool :=
  s.machine.files.contains s.installation.backing.path

end Station
end Telemetry
