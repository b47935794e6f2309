import Telemetry.Broadcast.Setup
import Telemetry.Collector.Demux
import Telemetry.Collector.Relay
import Telemetry.Config.Handle
import Telemetry.Transport.Receiver

/-!
# The collector — receive, demultiplex, relay

Datagrams are handled in the order of their arrival; the line of each is broadcast to the clients,
unless it is longer than the region.  Being told to, the collector reads its configuration again
before it looks at the sockets; a valid one replaces the sources and closes every series.
-/

namespace Telemetry

inductive BindError where
  | listen (address : SocketAddress)
  | clients (address : SocketAddress)
  | region (e : BroadcastError)
  deriving DecidableEq

def BindError.message : BindError → String
  | listen address => s!"cannot listen on {address.text}"
  | clients address => s!"cannot accept clients on {address.text}"
  | region _ => "cannot set up broadcast region"

structure Collector where
  handle : Handle CollectorConfig
  receiver : Receiver
  clients : Option SocketAddress
  demux : Demux
  relay : Relay

inductive Connection where
  /-- a client; whether its socket can be prepared, and a process be forked for it -/
  | client (prepared forked : Bool)
  | interrupted
  | fault (f : SystemFault)
  deriving DecidableEq

namespace Collector

def bind (m : Machine) (handle : Handle CollectorConfig) :
    Except BindError Collector × Machine :=
  let c := handle.current.value
  match Receiver.bind m.network c.listen >>= Receiver.watch with
  | .error _ => (.error (.listen c.listen), m)
  | .ok receiver =>
      match c.clients.filter fun a => !m.network.canBind a with
      | some address => (.error (.clients address), m)
      | none =>
          match Installation.create noFaults m none c.broadcastCapacity with
          | (.error e, m) => (.error (.region e), m)
          | (.ok i, m) =>
              (.ok ⟨handle, receiver, c.clients, Demux.onFiles m.files,
                Relay.fresh c.broadcastCapacity i.semaphore.name⟩, m)

/-! ## Datagrams -/

/-- Handle one datagram; its line is answered, if it has one.  The clients are processes, and fewer
than a semaphore counts, so that no post of a permit is refused. -/
def handleDatagram (c : Collector) (sender : SocketAddress) (bytes : List UInt8) :
    Option String × Collector :=
  match c.demux.handle c.handle.current.value.sources sender bytes with
  | (none, demux) => (none, { c with demux := demux })
  | (some line, demux) =>
      (some line, { c with demux := demux, relay := c.relay.broadcast line.toUTF8.toList })

/-- Handle the datagrams that wait, until receiving gives none or fails; the lines are answered, and
what is left waiting. -/
def drain (c : Collector) (inbox : List Arrival) :
    List (Option String) × Collector × List Arrival :=
  match _h : Inbox.receive inbox with
  | (.datagram sender bytes, rest) =>
      let (line, c) := c.handleDatagram sender bytes
      let (lines, c, rest) := c.drain rest
      (line :: lines, c, rest)
  | (.nothing, rest) => ([], c, rest)
  | (.failed _, rest) => ([], c, rest)
termination_by inbox.length
decreasing_by exact Inbox.length_of_receiveWithin _h

/-! ## Clients -/

/-- Accept the clients that wait, up to a fault of the socket; how many are served is answered, and
what is left waiting. -/
def acceptAll (c : Collector) : List Connection → Nat × Collector × List Connection
  | [] => (0, c, [])
  | .interrupted :: rest => c.acceptAll rest
  | .fault _ :: rest => (0, c, rest)
  | .client prepared forked :: rest =>
      if prepared && forked then
        let (n, c, rest) := { c with relay := c.relay.connect true }.acceptAll rest
        (n + 1, c, rest)
      else if prepared then
        -- without a process the reader that was set for the client leaves at once
        let room := (c.relay.room.step .subscribe).2
        let room := (room.step (.leave c.relay.room.seats.length)).2
        { c with relay := { c.relay with room := room } }.acceptAll rest
      -- a socket that cannot be prepared is closed, and no reader was set for it
      else c.acceptAll rest

/-! ## Reloading -/

def reload (c : Collector) (r : Resolver) (fs : Files) (serial : Nat) : Collector :=
  match c.handle.reload r fs serial with
  | .error _ => c
  | .ok handle =>
      -- the series are opened anew, under the names that the new sources give
      { c with handle := handle, demux := { c.demux with series := c.demux.series.clear } }

end Collector
end Telemetry
