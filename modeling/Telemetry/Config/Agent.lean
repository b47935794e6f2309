import Telemetry.Address.Resolve
import Telemetry.Config.Channel
import Telemetry.Config.Error
import Telemetry.Packet.Limit

/-!
# Agent configuration

An `AgentFile` is what the document says; an `AgentConfig` is what it means once it has been checked
and its addresses are resolved.
-/

namespace Telemetry

structure MuxEntry where
  name : Option String
  address : String
  streams : List StreamKey
  deriving DecidableEq

structure AgentFile where
  interval : Nat
  maxPacketSize : Option Nat
  muxes : List MuxEntry
  deriving DecidableEq

/-- Seconds between two samplings if the document does not say. -/
def defaultInterval : Nat := 5

/-! ## Reading the document -/

namespace MuxEntry

structure Filled where
  name : Option String
  address : Option String
  streams : Option (List StreamKey)

def fieldNames : List String := ["name", "address", "streams"]

def takeField (p : Filled) (field : String × Toml.Value) : Except Toml.ShapeError Filled :=
  match field with
  | ("name", v) => (Toml.asString "a string" v).map fun s => { p with name := some s }
  | ("address", v) => (Toml.asString "a string" v).map fun s => { p with address := some s }
  | ("streams", v) => (Toml.asKeys v).map fun ks => { p with streams := some ks }
  | (other, _) => .error (.unknownField other fieldNames)

def ofFields (es : Toml.Entries) : Except Toml.ShapeError MuxEntry := do
  let p ← es.foldlM takeField ⟨none, none, none⟩
  match p.address, p.streams with
  | none, _ => throw (.missingField "address")
  | _, none => throw (.missingField "streams")
  | some address, some streams => return ⟨p.name, address, streams⟩

/-- The fields by position. -/
def ofItems (items : List Toml.Value) : Except Toml.ShapeError MuxEntry :=
  let tooShort (n : Nat) : Toml.ShapeError := .wrongLength n "struct MuxEntry with 3 elements"
  match items with
  | [] => .error (tooShort 0)
  | name :: items => do
      let name ← Toml.asString "a string" name
      match items with
      | [] => throw (tooShort 1)
      | address :: items => do
          let address ← Toml.asString "a string" address
          match items with
          | [] => throw (tooShort 2)
          | streams :: _ => do
              let streams ← Toml.asKeys streams
              return ⟨some name, address, streams⟩

def ofValue : Toml.Value → Except Toml.ShapeError MuxEntry
  | .table _ es => ofFields es
  | .array items | .tables items => ofItems items
  | .datetime => .error (.unknownField Toml.datetimeField fieldNames)
  | v => .error (.wrongType (Toml.Found.ofValue v) "struct MuxEntry")

end MuxEntry

namespace AgentFile

structure Filled where
  interval : Option Nat
  maxPacketSize : Option Nat
  muxes : Option (List MuxEntry)

def fieldNames : List String := ["interval_secs", "max_packet_size", "mux"]

def takeField (p : Filled) (field : String × Toml.Value) : Except Toml.ShapeError Filled :=
  match field with
  | ("interval_secs", v) => (Toml.asUnsigned "u64" v).map fun n => { p with interval := some n }
  | ("max_packet_size", v) =>
      (Toml.asUnsigned "usize" v).map fun n => { p with maxPacketSize := some n }
  | ("mux", v) => do
      let items ← Toml.asSequence v
      let muxes ← items.mapM MuxEntry.ofValue
      return { p with muxes := some muxes }
  | (other, _) => .error (.unknownField other fieldNames)

def ofEntries (es : Toml.Entries) : Except Toml.ShapeError AgentFile := do
  let p ← es.foldlM takeField ⟨none, none, none⟩
  return ⟨p.interval.getD defaultInterval, p.maxPacketSize, p.muxes.getD []⟩

end AgentFile

/-! ## Checking it -/

structure AgentConfig where
  /-- seconds between two samplings -/
  interval : Nat
  maxPacketSize : Option Nat
  muxes : MuxSet
  deriving DecidableEq

namespace AgentConfig

/-- Resolve a `mux` table, add it, and give it its streams. -/
def addMux (r : Resolver) (muxes : MuxSet) (entry : MuxEntry) : Except ConfigError MuxSet :=
  match r.socket entry.address with
  | .error reason => .error (.unresolved entry.address reason)
  | .ok address =>
      -- a destination without a name goes by its address as it was written
      let name := entry.name.getD entry.address
      match MuxSet.add muxes ⟨name, address, Registry.empty⟩ with
      | .error d => .error (.duplicate d)
      | .ok muxes =>
          match Registry.empty.insertAll (entry.streams.map fun k => Channel.mk k none) with
          | .error d => .error (.duplicate d)
          | .ok channels => .ok (muxes.replaceLast ⟨name, address, channels⟩)

def ofFile (r : Resolver) (file : AgentFile) : Except ConfigError AgentConfig :=
  if file.interval = 0 then .error (.invalid .zeroInterval)
  else
    match file.maxPacketSize.mapM PacketLimit.ofSize with
    | .error e => .error (.invalid (.packetSize e))
    | .ok _ =>
        match file.muxes.foldlM (addMux r) Registry.empty with
        | .error e => .error e
        | .ok muxes => .ok ⟨file.interval, file.maxPacketSize, muxes⟩

def parse (r : Resolver) (text : String) : Except ConfigError AgentConfig :=
  match Toml.parse text with
  | none => .error .notToml
  | some es =>
      match AgentFile.ofEntries es with
      | .error e => .error (.shape e)
      | .ok file => ofFile r file

/-- Every stream shipped to some destination, once, in the order of first mention. -/
def sampledStreams (c : AgentConfig) : List StreamKey :=
  (c.muxes.entries.flatMap fun m => m.channels.entries.map Channel.key).foldl
    (fun seen k => if k ∈ seen then seen else seen ++ [k]) []

end AgentConfig
end Telemetry
