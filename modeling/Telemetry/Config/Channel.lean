import Telemetry.Address.Ip
import Telemetry.Config.Registry
import Telemetry.Stream.Key

/-!
# Channels, sources and destinations

A `Channel` is a stream key with the series file it may be written to.  A `Source` is a monitored
host and the channels accepted from it; a `Mux` is a destination and the channels shipped to it.
-/

namespace Telemetry

/-- One stream, and the series file it is written to. -/
structure Channel where
  key : StreamKey
  sink : Option String
  deriving DecidableEq

instance : Keyed Channel StreamKey where
  key := Channel.key
  keyText c := c.key.text
  noun := "stream"

abbrev ChannelSet := Registry Channel

def ChannelSet.lookup? (cs : ChannelSet) (kind : StreamKind) (argument : String) :
    Option Channel :=
  cs.entries.find? fun c => c.key.isNamed kind argument

/-! ## Sources -/

/-- A monitored host. -/
structure Source where
  host : String
  address : IpAddress
  channels : ChannelSet
  deriving DecidableEq

instance : Keyed Source IpAddress where
  key := Source.address
  keyText s := s.address.text
  noun := "source"

/-- The channel under which a source may send a measurement. -/
def Source.accepts? (s : Source) (kind : StreamKind) (argument : String) : Option Channel :=
  s.channels.lookup? kind argument

abbrev SourceSet := Registry Source

/-! ## Destinations -/

/-- A destination of measurements. -/
structure Mux where
  name : String
  address : SocketAddress
  channels : ChannelSet
  deriving DecidableEq

instance : Keyed Mux SocketAddress where
  key := Mux.address
  keyText m := m.address.text
  noun := "mux"

abbrev MuxSet := Registry Mux

namespace MuxSet

def findByName? (ms : MuxSet) (name : String) : Option Mux :=
  ms.entries.find? fun m => m.name = name

/-- Add a destination, unless its name or its address is taken. -/
def add (ms : MuxSet) (m : Mux) : Except Duplicate MuxSet :=
  if (findByName? ms m.name).isSome then .error ⟨"mux", m.name⟩
  else ms.insert m

end MuxSet

/-! ## Adding an entry with its channels -/

/-- Why an entry with channels given as text was not added in full. -/
inductive EntryError where
  | stream (e : StreamError)
  | duplicate (d : Duplicate)
  deriving DecidableEq, Repr

structure ChannelText where
  key : String
  sink : Option String
  deriving DecidableEq, Repr

/-- Add channels one by one; the answer is the set as far as it came, and what stopped it. -/
def ChannelSet.extend (cs : ChannelSet) : List ChannelText → ChannelSet × Option EntryError
  | [] => (cs, none)
  | t :: ts =>
      match StreamKey.parse t.key with
      | .error e => (cs, some (.stream e))
      | .ok key =>
          match cs.insert ⟨key, t.sink⟩ with
          | .error d => (cs, some (.duplicate d))
          | .ok cs => ChannelSet.extend cs ts

/-- Add a source without channels, then its channels one by one. -/
def SourceSet.declare (ss : SourceSet) (host : String) (address : IpAddress)
    (channels : List ChannelText) : SourceSet × Option EntryError :=
  match ss.insert ⟨host, address, Registry.empty⟩ with
  | .error d => (ss, some (.duplicate d))
  | .ok ss =>
      let (cs, fault) := ChannelSet.extend Registry.empty channels
      -- what was added before the fault stays
      (ss.replaceLast ⟨host, address, cs⟩, fault)

/-- Add a destination without channels, then its channels one by one.  With `named` its name must be
free as well as its address. -/
def MuxSet.declare (ms : MuxSet) (named : Bool) (name : String) (address : SocketAddress)
    (channels : List ChannelText) : MuxSet × Option EntryError :=
  let m : Mux := ⟨name, address, Registry.empty⟩
  match if named then MuxSet.add ms m else ms.insert m with
  | .error d => (ms, some (.duplicate d))
  | .ok ms =>
      let (cs, fault) := ChannelSet.extend Registry.empty channels
      (ms.replaceLast ⟨name, address, cs⟩, fault)

end Telemetry
