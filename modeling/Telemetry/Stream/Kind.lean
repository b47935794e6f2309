import Telemetry.Field

/-!
# Stream kinds — the closed set of measurements

The tag of a kind is its position in the table and part of the wire format.  `StreamKind.fields`
fixes names, kinds and order of the fields of a record of that kind.
-/

namespace Telemetry

/-- What a stream measures, in tag order. -/
inductive StreamKind where
  /-- disk transfer totals, three counters -/
  | diskTotals
  | cpu
  /-- memory and swap, older table entry -/
  | memoryOlder
  /-- network interface, 32-bit counters -/
  | interface32
  | packetFilter
  | kernelDebug
  | process
  | networkBuffer
  | sensor
  /-- disk transfers split by direction -/
  | disk
  | filterQueue
  | fileSystem
  | memory
  /-- network interface, 64-bit counters -/
  | interface64
  | cpuWithWait
  | load
  /-- four fields of every kind -/
  | synthetic
  deriving DecidableEq, Repr

namespace StreamKind

def all : List StreamKind :=
  [diskTotals, cpu, memoryOlder, interface32, packetFilter, kernelDebug, process, networkBuffer,
    sensor, disk, filterQueue, fileSystem, memory, interface64, cpuWithWait, load, synthetic]

def tag : StreamKind → UInt8
  | diskTotals => 0
  | cpu => 1
  | memoryOlder => 2
  | interface32 => 3
  | packetFilter => 4
  | kernelDebug => 5
  | process => 6
  | networkBuffer => 7
  | sensor => 8
  | disk => 9
  | filterQueue => 10
  | fileSystem => 11
  | memory => 12
  | interface64 => 13
  | cpuWithWait => 14
  | load => 15
  | synthetic => 16

def ofTag? (tag : UInt8) : Option StreamKind :=
  all[tag.toNat]?

@[simp] theorem ofTag?_tag (k : StreamKind) : ofTag? k.tag = some k := by
  cases k <;> rfl

/-- First tag past the end of the table. -/
def sentinel : UInt8 := 17

def name : StreamKind → String
  | diskTotals => "io1"
  | cpu => "cpu"
  | memoryOlder => "mem1"
  | interface32 => "if1"
  | packetFilter => "pf"
  | kernelDebug => "debug"
  | process => "proc"
  | networkBuffer => "mbuf"
  | sensor => "sensor"
  | disk => "io"
  | filterQueue => "pfq"
  | fileSystem => "df"
  | memory => "mem"
  | interface64 => "if"
  | cpuWithWait => "cpuiow"
  | load => "load"
  | synthetic => "test"

def ofName? (name : String) : Option StreamKind :=
  all.find? (·.name == name)

/-! ## Fields -/

private def memoryFields : List (String × FieldKind) :=
  [("real_active", .counter64), ("real_total", .counter64), ("free", .counter64),
    ("swap_used", .counter64), ("swap_total", .counter64)]

private def interfaceFields (k : FieldKind) : List (String × FieldKind) :=
  ["ipackets", "opackets", "ibytes", "obytes", "imcasts", "omcasts", "ierrors", "oerrors",
    "collisions", "drops"].map (·, k)

private def cpuFields : List (String × FieldKind) :=
  ["user", "nice", "system", "interrupt", "idle"].map (·, .percent)

private def numbered (stem : String) (count : Nat) (k : FieldKind) : List (String × FieldKind) :=
  (List.range count).map fun i => (stem ++ i.repr, k)

/-- Field names and kinds, in wire order. -/
def fields : StreamKind → List (String × FieldKind)
  | diskTotals =>
      ["total_transfers", "total_seeks", "total_bytes"].map (·, .counter64)
  | cpu => cpuFields
  | memoryOlder => memoryFields
  | interface32 => interfaceFields .counter32
  | packetFilter =>
      ["bytes_v4_in", "bytes_v4_out", "bytes_v6_in", "bytes_v6_out", "packets_v4_in_pass",
        "packets_v4_in_drop", "packets_v4_out_pass", "packets_v4_out_drop", "packets_v6_in_pass",
        "packets_v6_in_drop", "packets_v6_out_pass", "packets_v6_out_drop", "states_entries",
        "states_searches", "states_inserts", "states_removals", "counters_match",
        "counters_badoffset", "counters_fragment", "counters_short", "counters_normalize",
        "counters_memory"].map (·, .counter64)
  | kernelDebug => numbered "debug" 20 .counter32
  | process =>
      [("number", .counter32), ("uticks", .counter64), ("sticks", .counter64),
        ("iticks", .counter64), ("cpusec", .counter32), ("cpupct", .percent),
        ("procsz", .counter32), ("rsssz", .counter32)]
  | networkBuffer =>
      ["totmbufs", "mt_data", "mt_oobdata", "mt_control", "mt_header", "mt_ftable", "mt_soname",
        "mt_soopts", "pgused", "pgtotal", "totmem", "totpct", "m_drops", "m_wait",
        "m_drain"].map (·, .counter32)
  | sensor => [("value", .fixed)]
  | disk => ["rxfer", "wxfer", "seeks", "rbytes", "wbytes"].map (·, .counter64)
  | filterQueue => ["sent_bytes", "sent_packets", "drop_bytes", "drop_packets"].map (·, .counter64)
  | fileSystem =>
      ["blocks", "bfree", "bavail", "files", "ffree", "syncwrites", "asyncwrites"].map
        (·, .counter64)
  | memory => memoryFields
  | interface64 => interfaceFields .counter64
  | cpuWithWait => cpuFields ++ [("iowait", .percent)]
  | load => ["load1", "load5", "load15"].map (·, .scaled)
  | synthetic =>
      numbered "counter64_" 4 .counter64 ++ numbered "fixed_" 4 .fixed
        ++ numbered "counter32_" 4 .counter32 ++ numbered "scaled_" 4 .scaled
        ++ numbered "percent_" 4 .percent ++ numbered "byte_" 4 .byte

def fieldNames (k : StreamKind) : List String :=
  k.fields.map (·.1)

def shape (k : StreamKind) : List FieldKind :=
  k.fields.map (·.2)

def payloadSize (k : StreamKind) : Nat :=
  FieldKind.totalSize k.shape

end StreamKind
end Telemetry
