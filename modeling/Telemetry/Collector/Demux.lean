import Telemetry.Collector.Sink
import Telemetry.Config.Channel
import Telemetry.Packet.Packet
import Telemetry.Render

/-!
# Demultiplexing — from datagrams to lines

A datagram of a known source is parsed; the records in front of the first malformed one are held
against the channels that the source accepts.  An accepted record is stored in the series of its
channel, if it has one, and becomes an entry of the line; the others are dropped.
-/

namespace Telemetry

structure DemuxStats where
  packets : Nat
  unknownSources : Nat
  rejected : Nat
  records : Nat
  droppedRecords : Nat
  deriving DecidableEq, Repr

def DemuxStats.zero : DemuxStats := ⟨0, 0, 0, 0, 0⟩

structure Demux where
  stats : DemuxStats
  series : Series
  deriving DecidableEq

namespace Demux

def onFiles (files : Files) : Demux :=
  ⟨DemuxStats.zero, Series.onFiles files⟩

def updateText (timestamp : UInt64) (m : Measurement) : String :=
  s!"{timestamp}{m.render .update}"

def entryText (timestamp : UInt64) (m : Measurement) : String :=
  s!"{m.kind.name}:{m.argument}:{updateText timestamp m};"

def lineText (host : String) (timestamp : UInt64) (accepted : List Measurement) : String :=
  host ++ ";" ++ String.join (accepted.map (entryText timestamp)) ++ "\n"

def acceptedFrom (source : Source) (ms : List Measurement) : List (Channel × Measurement) :=
  ms.filterMap fun m => (source.accepts? m.kind m.argument).map fun c => (c, m)

/-- Store a measurement in the series of its channel, if it has one. -/
def store (timestamp : UInt64) (s : Series) (entry : Channel × Measurement) : Series :=
  match entry.1.sink with
  | none => s
  | some path => (s.update path (updateText timestamp entry.2)).2

def route (d : Demux) (source : Source) (p : Packet) : Option String × Demux :=
  let ms := p.wellFormed
  let accepted := acceptedFrom source ms
  let d : Demux :=
    { stats :=
        { d.stats with
          packets := d.stats.packets + 1
          records := d.stats.records + accepted.length
          droppedRecords := d.stats.droppedRecords + (ms.length - accepted.length) }
      -- in the order of the packet
      series := accepted.foldl (store p.timestamp) d.series }
  if accepted.isEmpty then (none, d)
  else (some (lineText source.host p.timestamp (accepted.map (·.2))), d)

/-- Handle one datagram; the line for its accepted records is answered, if there are any. -/
def handle (d : Demux) (sources : SourceSet) (sender : SocketAddress) (datagram : List UInt8) :
    Option String × Demux :=
  match sources.find? sender.ip.canonical with
  | none => (none, { d with stats := { d.stats with unknownSources := d.stats.unknownSources + 1 } })
  | some source =>
      match Packet.parse datagram with
      | .error _ => (none, { d with stats := { d.stats with rejected := d.stats.rejected + 1 } })
      | .ok p => d.route source p

end Demux
end Telemetry
