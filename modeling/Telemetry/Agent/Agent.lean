import Telemetry.Agent.ProbeSet
import Telemetry.Config.Handle
import Telemetry.Packet.Builder
import Telemetry.Transport.MuxSender

/-!
# The agent — sample, pack, ship

An agent samples its active keys once in each interval and ships to every destination the records of
the channels configured for it.  Hearing a hang-up it reads its configuration again; a configuration
that cannot be put to work in full leaves keys, routes and packet limit as they were.
-/

namespace Telemetry

structure Route where
  sender : MuxSender
  keys : List StreamKey
  deriving DecidableEq

/-- Why no socket can be had for a destination, if none can. -/
abbrev Connector := Mux → Option SystemFault

def Connector.always : Connector := fun _ => none

structure Agent where
  handle : Handle AgentConfig
  /-- seconds between two rounds -/
  period : Nat
  limit : PacketLimit
  probes : ProbeSet
  active : List StreamKey
  routes : List Route

namespace Agent

/-! ## Putting a configuration to work -/

def limitOf (c : AgentConfig) : Except WireError PacketLimit :=
  match c.maxPacketSize with
  | none => .ok PacketLimit.standard
  | some size => PacketLimit.ofSize size

/-- A route to a destination; of its channels, those with an active key are shipped. -/
def routeTo (connector : Connector) (active : List StreamKey) (m : Mux) :
    Except SystemFault Route :=
  match connector m with
  | some f => .error f
  | none =>
      .ok
        ⟨MuxSender.start m.name m.address,
          (m.channels.entries.map Channel.key).filter fun k => active.contains k⟩

/-- Put a configuration to work, and tell whether that went through.  The probes are prepared even
if a socket cannot be had. -/
def apply (connector : Connector) (a : Agent) (c : AgentConfig) : Bool × Agent :=
  match limitOf c with
  | .error _ => (false, a)
  | .ok limit =>
      let (active, probes) := a.probes.prepare c.sampledStreams
      -- the probes stay prepared whatever becomes of the sockets
      let a := { a with probes := probes }
      match c.muxes.entries.mapM (routeTo connector active) with
      | .error _ => (false, a)
      | .ok routes => (true, { a with limit := limit, active := active, routes := routes })

def start (connector : Connector) (handle : Handle AgentConfig) (probes : ProbeSet) :
    Option Agent :=
  let idle : Agent :=
    ⟨handle, handle.current.value.interval, PacketLimit.standard, probes, [], []⟩
  match idle.apply connector handle.current.value with
  | (true, a) => some a
  | (false, _) => none

/-! ## Rounds -/

def measurementsFor (samples : ProbeSet.Samples) (keys : List StreamKey) : List Measurement :=
  keys.filterMap fun key => (samples.get? key).map fun record => ⟨key.argument, record⟩

/-- Ship to one destination; what got through is answered. -/
def ship (link : Link) (limit : PacketLimit) (timestamp : UInt64) (samples : ProbeSet.Samples)
    (r : Route) : List (SocketAddress × List UInt8) × Route :=
  let datagrams := buildPackets limit timestamp (measurementsFor samples r.keys)
  let (through, sender) := r.sender.sendAll link datagrams
  (through.map fun d => (r.sender.remote, d), { r with sender := sender })

/-- One round; the datagrams that got through are answered, with their destinations. -/
def tick (link : Link) (timestamp : UInt64) (a : Agent) :
    List (SocketAddress × List UInt8) × Agent :=
  let (samples, probes) := a.probes.sampleAll a.active
  let shipped := a.routes.map (ship link a.limit timestamp samples)
  (shipped.flatMap (·.1), { a with probes := probes, routes := shipped.map (·.2) })

/-! ## Runs -/

/-- Read the configuration again and put it to work; the period follows the handle. -/
def hangUp (connector : Connector) (r : Resolver) (fs : Files) (serial : Nat) (a : Agent) : Agent :=
  match a.handle.reload r fs serial with
  | .error _ => a
  | .ok handle =>
      let a := { a with handle := handle }
      -- what cannot be put to work leaves the old routes in use
      let a := (a.apply connector handle.current.value).2
      { a with period := handle.current.value.interval }

inductive Event where
  /-- a round, with what becomes of its datagrams -/
  | tick (link : Link) (timestamp : UInt64)
  /-- read the file, as it is then, with the names and the sockets that can be had then -/
  | hangUp (connector : Connector) (resolver : Resolver) (files : Files)

def step (serial : Nat) (a : Agent) : Event → Agent
  | .tick link timestamp => (a.tick link timestamp).2
  | .hangUp connector resolver files => a.hangUp connector resolver files serial

def run (serial : Nat) (a : Agent) : List Event → Agent
  | [] => a
  | e :: es => run (serial + 1) (a.step serial e) es

end Agent
end Telemetry
