import Telemetry.Broadcast.Master
import Telemetry.Broadcast.Reader

/-!
# Room — a master and its readers

A `Room` is a region with its master and every reader that ever joined, each on a seat of its own.
`Room.step` runs one step of the master or of one reader; the steps may come in any order.
-/

namespace Telemetry

inductive SeatState where
  | taken
  | left
  | exited (code : Nat)
  /-- its process was killed, and could not record that it left -/
  | killed
  deriving DecidableEq, Repr

structure Seat where
  reader : Reader
  forked : Bool
  state : SeatState
  /-- the error of its last call, if that call failed -/
  fault : Option BroadcastError
  deriving DecidableEq, Repr

structure Room where
  region : Region
  master : Master
  seats : List Seat

namespace Room

def fresh (capacity : Nat) (name : String := Semaphore.plainName) : Room :=
  ⟨Region.fresh capacity name, Master.fresh, []⟩

/-- What the system tells of the process of a reader; processes are numbered as the seats are. -/
def status (r : Room) (i : Nat) : ChildStatus :=
  match r.seats[i]? with
  | none => .unknown
  | some s =>
      if s.forked then
        match s.state with
        | .exited code => .exited code
        | .killed => .killed
        | .taken | .left => .running
      else .unknown

inductive Step where
  | forbid
  | write (content : List UInt8)
  | permit
  | broadcast (content : List UInt8)
  | subscribe
  /-- a reader in a process of its own joins -/
  | spawn
  | wait (i : Nat)
  | done (i : Nat)
  | content (i : Nat)
  /-- wait and done at once -/
  | receive (i : Nat)
  | leave (i : Nat)
  /-- the work of a forked reader ends, with the error of its last call if that failed -/
  | exit (i : Nat)
  | panic (i : Nat)
  | kill (i : Nat)
  deriving DecidableEq, Repr

inductive Reply where
  | nothing
  | joined (i : Nat)
  | blocked
  | content (bytes : List UInt8)
  | done
  | failed (e : BroadcastError)
  deriving DecidableEq, Repr

def Reply.ofResult : Except BroadcastError Unit → Reply
  | .ok () => .nothing
  | .error e => .failed e

/-! ## Steps of readers -/

def join (r : Room) (forked : Bool) : Reply × Room :=
  let (reader, region) := Reader.join r.region
  let i := r.seats.length
  -- a process of its own is one more child to reap
  let master :=
    if forked then { r.master with children := r.master.children ++ [i] } else r.master
  (.joined i, ⟨region, master, r.seats ++ [⟨reader, forked, .taken, none⟩]⟩)

def reseat (r : Room) (i : Nat) (s : Seat) (reader : Reader) (fault : Option BroadcastError)
    (region : Region) : Room :=
  { r with region := region, seats := r.seats.set i { s with reader := reader, fault := fault } }

def wait (r : Room) (i : Nat) (s : Seat) : Reply × Room :=
  match s.reader.wait r.region with
  | (.blocked, reader, region) => (.blocked, r.reseat i s reader s.fault region)
  | (.failed e, reader, region) => (.failed e, r.reseat i s reader (some e) region)
  | (.ready bytes, reader, region) => (.content bytes, r.reseat i s reader none region)

def finish (r : Room) (i : Nat) (s : Seat) : Reply × Room :=
  match s.reader.finish r.region with
  | (.ok region, reader) => (.done, r.reseat i s reader none region)
  | (.error e, reader) => (.failed e, r.reseat i s reader (some e) r.region)

/-- Look at the content copied last; that never fails. -/
def view (r : Room) (i : Nat) (s : Seat) : Reply × Room :=
  (.content s.reader.content, r.reseat i s s.reader none r.region)

/-- Wait, and if content came, confirm it. -/
def receive (r : Room) (i : Nat) (s : Seat) : Reply × Room :=
  match r.wait i s with
  | (.content bytes, r') =>
      match r'.seats[i]? with
      | none => (.nothing, r')
      | some s' =>
          match r'.finish i s' with
          | (.done, r'') => (.content bytes, r'')
          | other => other
  | other => other

/-- A reader leaves its seat and records that it left. -/
def depart (r : Room) (i : Nat) (s : Seat) (state : SeatState) : Reply × Room :=
  (.nothing,
    { r with region := r.region.depart, seats := r.seats.set i { s with state := state } })

/-- Run a call of the reader on a seat; a seat that is not taken does nothing. -/
def onSeat (r : Room) (i : Nat) (call : Seat → Reply × Room) : Reply × Room :=
  match r.seats[i]? with
  | none => (.nothing, r)
  | some s => if s.state = .taken then call s else (.nothing, r)

/-! ## Steps -/

def step (r : Room) : Step → Reply × Room
  | .forbid =>
      let (master, region) := r.master.forbidRead r.status r.region
      (.nothing, { r with master := master, region := region })
  | .write content =>
      match r.region.write content with
      | .ok region => (.nothing, { r with region := region })
      | .error e => (.failed e, r)
  | .permit =>
      let (posted, region) := r.master.permitRead r.region
      (.ofResult posted, { r with region := region })
  | .broadcast content =>
      let (result, master, region) := r.master.broadcast r.status r.region content
      (.ofResult result, { r with master := master, region := region })
  | .subscribe => r.join false
  | .spawn => r.join true
  | .wait i => r.onSeat i (r.wait i)
  | .done i => r.onSeat i (r.finish i)
  | .content i => r.onSeat i (r.view i)
  | .receive i => r.onSeat i (r.receive i)
  | .leave i => r.onSeat i fun s => r.depart i s .left
  | .exit i =>
      r.onSeat i fun s =>
        r.depart i s (.exited (exitCode (match s.fault with
          | none => .ok ()
          | some e => .error e)))
  | .panic i => r.onSeat i fun s => r.depart i s (.exited 1)
  | .kill i =>
      r.onSeat i fun s => (.nothing, { r with seats := r.seats.set i { s with state := .killed } })

/-- A step, unless it would block: then nothing happens. -/
def attempt (r : Room) (s : Step) : Reply × Room :=
  match r.step s with
  | (.blocked, _) => (.blocked, r)
  | answer => answer

def run (r : Room) (steps : List Step) : Room :=
  steps.foldl (fun r s => (r.step s).2) r

end Room
end Telemetry
