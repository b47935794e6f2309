import Telemetry.Broadcast.Room

/-!
# Relay — a line for every client

Each client has a reader of its own.  Serving it goes round: wait for a cycle, confirm its content,
write it to the client.  Nothing is written that was not confirmed.  A refused write ends the serving
in good order; a reader that fell behind ends it with that error.
-/

namespace Telemetry

inductive ServeStage where
  | waiting
  /-- content that is not confirmed yet -/
  | copied (content : List UInt8)
  /-- confirmed content, to be written next -/
  | writing (content : List UInt8)
  | disconnected
  | failed (e : BroadcastError)
  deriving DecidableEq, Repr

inductive WriteOutcome where
  | taken
  /-- the client went away after this many bytes -/
  | refused (after : Nat)
  deriving DecidableEq, Repr

structure Client where
  seat : Nat
  stage : ServeStage
  /-- the bytes written to the client so far -/
  sent : List UInt8
  deriving DecidableEq, Repr

structure Relay where
  room : Room
  clients : List Client

namespace Relay

def fresh (capacity : Nat) (name : String := Semaphore.plainName) : Relay :=
  ⟨Room.fresh capacity name, []⟩

/-- A client connects, and a reader is set to serve it. -/
def connect (r : Relay) (forked : Bool) : Relay :=
  ⟨(r.room.join forked).2, r.clients ++ [⟨r.room.seats.length, .waiting, []⟩]⟩

/-- Put a client back after a step; if that `ended` its serving, its reader leaves. -/
def after (r : Relay) (i : Nat) (c : Client) (room : Room) (ended : Bool) : Relay :=
  -- only a reader whose serving ended gives up its seat
  let room := if ended then (room.step (.exit c.seat)).2 else room
  ⟨room, r.clients.set i c⟩

/-- One step of serving a client; `outcome` is what becomes of a write. -/
def serve (r : Relay) (i : Nat) (outcome : WriteOutcome) : Relay :=
  match r.clients[i]? with
  | none => r
  | some c =>
      match c.stage with
      | .waiting =>
          match r.room.step (.wait c.seat) with
          | (.content bytes, room) => r.after i { c with stage := .copied bytes } room false
          | (.failed e, room) => r.after i { c with stage := .failed e } room true
          | (_, room) => r.after i c room false
      | .copied bytes =>
          match r.room.step (.done c.seat) with
          | (.failed e, room) => r.after i { c with stage := .failed e } room true
          | (_, room) => r.after i { c with stage := .writing bytes } room false
      | .writing bytes =>
          match outcome with
          | .taken =>
              r.after i { c with stage := .waiting, sent := c.sent ++ bytes } r.room false
          | .refused n =>
              -- a client that went away ends the serving in good order
              r.after i { c with stage := .disconnected, sent := c.sent ++ bytes.take n } r.room
                true
      | .disconnected | .failed _ => r

inductive Step where
  | forbid
  | write (content : List UInt8)
  | permit
  | connect
  | serve (i : Nat) (outcome : WriteOutcome)
  deriving DecidableEq, Repr

def step (r : Relay) : Step → Relay
  | .forbid => { r with room := (r.room.step .forbid).2 }
  | .write content => { r with room := (r.room.step (.write content)).2 }
  | .permit => { r with room := (r.room.step .permit).2 }
  | .connect => r.connect true
  | .serve i outcome => r.serve i outcome

def run (r : Relay) (steps : List Step) : Relay :=
  steps.foldl step r

/-- One full cycle; a line that is too long is dropped, and changes nothing. -/
def broadcast (r : Relay) (line : List UInt8) : Relay :=
  { r with room := (r.room.step (.broadcast line)).2 }

/-- Serve a client until its next write, or until it has to wait or its serving ends. -/
def serveToWrite (r : Relay) (i : Nat) : Relay :=
  (r.serve i .taken).serve i .taken

def forget (r : Relay) : Relay :=
  { r with clients := r.clients.map fun c => { c with sent := [] } }

/-! ## One client on its own -/

def broadcastAll (r : Relay) : List (List UInt8) → Except BroadcastError Relay
  | [] => .ok r
  | line :: lines =>
      match r.room.step (.broadcast line) with
      | (.failed e, _) => .error e
      | (_, room) => { r with room := room }.broadcastAll lines

def handed? (r : Relay) (i : Nat) : Option (List UInt8) :=
  match r.clients[i]?.map Client.stage with
  | some (.writing bytes) => some bytes
  | _ => none

/-- Hand the first client all it can be handed now; it takes `accept` writes and refuses the next one.
The lines handed over are answered, `none` for the refused one, and the writes it still takes. -/
def handOver (r : Relay) : (accept : Nat) → List (Option (List UInt8)) × Nat × Relay
  | 0 =>
      match r.handed? 0 with
      | none => ([], 0, r)
      | some _ => ([none], 0, r.serve 0 (.refused 0))
  | accept + 1 =>
      match r.handed? 0 with
      | none => ([], accept + 1, r)
      | some line =>
          let (lines, left, r) := ((r.serve 0 .taken).serveToWrite 0).handOver accept
          (some line :: lines, left, r)

/-- What the first client is handed while lines are broadcast in groups, up to the write it refuses.  Of
each group the first line reaches the client, and the others follow while the client is still at it. -/
def serveGroups (r : Relay) (accept : Nat) :
    List (List (List UInt8)) → Except BroadcastError (List (Option (List UInt8)) × Relay)
  | [] => .ok ([], r)
  | group :: groups => do
      let r ← r.broadcastAll (group.take 1)
      let r ← (r.serveToWrite 0).broadcastAll (group.drop 1)
      let (lines, left, r) := r.handOver accept
      if lines.contains none then return (lines, r)
      else
        let (more, r) ← r.serveGroups left groups
        return (lines ++ more, r)

end Relay
end Telemetry
