import Telemetry.Address.Resolve
import Telemetry.Config.Channel
import Telemetry.Config.Error

/-!
# Collector configuration

A `CollectorFile` is what the document says; a `CollectorConfig` is what it means once it has been
checked and its addresses are resolved.
-/

namespace Telemetry

abbrev SinkTable := List (StreamKey × String)

namespace SinkTable

/-- Name the file of a stream; a file named before gives way. -/
def put (t : SinkTable) (key : StreamKey) (path : String) : SinkTable :=
  t.filter (fun e => e.1 ≠ key) ++ [(key, path)]

def find? (t : SinkTable) (key : StreamKey) : Option String :=
  (List.find? (fun e => e.1 = key) t).map (·.2)

def erase (t : SinkTable) (key : StreamKey) : SinkTable :=
  t.filter fun e => e.1 ≠ key

/-- The stream that comes first in the order of keys. -/
def least? (t : SinkTable) : Option StreamKey :=
  t.foldl
    (fun best e =>
      match best with
      | none => some e.1
      | some k => if e.1.before k then some e.1 else some k)
    none

end SinkTable

structure SourceEntry where
  host : String
  accept : List StreamKey
  write : SinkTable
  deriving DecidableEq

structure CollectorFile where
  listen : String
  clients : Option String
  broadcastCapacity : Nat
  sources : List SourceEntry
  deriving DecidableEq

/-- Bytes of the broadcast region if the document does not say. -/
def defaultCapacity : Nat := 65536

/-! ## Reading the document -/

namespace SourceEntry

def sinkTable (es : Toml.Entries) : Except Toml.ShapeError SinkTable :=
  es.foldlM
    (fun t (text, v) => do
      let key ← match StreamKey.parse text with
        | .ok k => pure k
        | .error e => throw (.stream e)
      let path ← Toml.asString "path string" v
      return SinkTable.put t key path)
    []

def sinkTableOfValue : Toml.Value → Except Toml.ShapeError SinkTable
  | .table _ es => sinkTable es
  | .datetime => sinkTable [(Toml.datetimeField, .datetime)]
  | v => .error (.wrongType (Toml.Found.ofValue v) "a map")

structure Filled where
  host : Option String
  accept : Option (List StreamKey)
  write : Option SinkTable

def fieldNames : List String := ["host", "accept", "write"]

def takeField (p : Filled) (field : String × Toml.Value) : Except Toml.ShapeError Filled :=
  match field with
  | ("host", v) => (Toml.asString "a string" v).map fun s => { p with host := some s }
  | ("accept", v) => (Toml.asKeys v).map fun ks => { p with accept := some ks }
  | ("write", v) => (sinkTableOfValue v).map fun t => { p with write := some t }
  | (other, _) => .error (.unknownField other fieldNames)

def ofFields (es : Toml.Entries) : Except Toml.ShapeError SourceEntry := do
  let p ← es.foldlM takeField ⟨none, none, none⟩
  match p.host, p.accept with
  | none, _ => throw (.missingField "host")
  | _, none => throw (.missingField "accept")
  | some host, some accept => return ⟨host, accept, p.write.getD []⟩

/-- The fields by position. -/
def ofItems (items : List Toml.Value) : Except Toml.ShapeError SourceEntry :=
  let tooShort (n : Nat) : Toml.ShapeError := .wrongLength n "struct SourceEntry with 3 elements"
  match items with
  | [] => .error (tooShort 0)
  | host :: items => do
      let host ← Toml.asString "a string" host
      match items with
      | [] => throw (tooShort 1)
      | accept :: items => do
          let accept ← Toml.asKeys accept
          match items with
          | [] => return ⟨host, accept, []⟩
          | write :: _ => do
              let write ← sinkTableOfValue write
              return ⟨host, accept, write⟩

def ofValue : Toml.Value → Except Toml.ShapeError SourceEntry
  | .table _ es => ofFields es
  | .array items | .tables items => ofItems items
  | .datetime => .error (.unknownField Toml.datetimeField fieldNames)
  | v => .error (.wrongType (Toml.Found.ofValue v) "struct SourceEntry")

end SourceEntry

namespace CollectorFile

structure Filled where
  listen : Option String
  clients : Option String
  broadcastCapacity : Option Nat
  sources : Option (List SourceEntry)

def fieldNames : List String := ["listen", "clients", "broadcast_capacity", "source"]

def takeField (p : Filled) (field : String × Toml.Value) : Except Toml.ShapeError Filled :=
  match field with
  | ("listen", v) => (Toml.asString "a string" v).map fun s => { p with listen := some s }
  | ("clients", v) => (Toml.asString "a string" v).map fun s => { p with clients := some s }
  | ("broadcast_capacity", v) =>
      (Toml.asUnsigned "usize" v).map fun n => { p with broadcastCapacity := some n }
  | ("source", v) => do
      let items ← Toml.asSequence v
      let sources ← items.mapM SourceEntry.ofValue
      return { p with sources := some sources }
  | (other, _) => .error (.unknownField other fieldNames)

def ofEntries (es : Toml.Entries) : Except Toml.ShapeError CollectorFile := do
  let p ← es.foldlM takeField ⟨none, none, none, none⟩
  match p.listen with
  | none => throw (.missingField "listen")
  | some listen =>
      return ⟨listen, p.clients, p.broadcastCapacity.getD defaultCapacity, p.sources.getD []⟩

end CollectorFile

/-! ## Checking it -/

structure CollectorConfig where
  listen : SocketAddress
  clients : Option SocketAddress
  broadcastCapacity : Nat
  sources : SourceSet
  deriving DecidableEq

namespace CollectorConfig

/-- The addresses that sockets are to be bound to. -/
def addresses (c : CollectorConfig) : List IpAddress :=
  c.listen.ip :: c.clients.toList.map SocketAddress.ip

/-- Give a source the streams it accepts, each with its series file; what is left of the table of
files comes with the answer. -/
def acceptStreams (channels : ChannelSet) (write : SinkTable) :
    List StreamKey → Except Duplicate (ChannelSet × SinkTable)
  | [] => .ok (channels, write)
  | k :: ks =>
      match channels.insert ⟨k, write.find? k⟩ with
      | .error d => .error d
      | .ok channels => acceptStreams channels (write.erase k) ks

/-- Resolve a `source` table, add it, and give it its streams. -/
def addSource (r : Resolver) (sources : SourceSet) (entry : SourceEntry) :
    Except ConfigError SourceSet :=
  match r.host entry.host with
  | .error reason => .error (.unresolved entry.host reason)
  | .ok address =>
      match sources.insert ⟨entry.host, address, Registry.empty⟩ with
      | .error d => .error (.duplicate d)
      | .ok sources =>
          match acceptStreams Registry.empty entry.write entry.accept with
          | .error d => .error (.duplicate d)
          | .ok (channels, left) =>
              -- of several such files, the one whose stream comes first is reported
              match left.least? with
              | some key => .error (.unacceptedSink entry.host key.text)
              | none => .ok (sources.replaceLast ⟨entry.host, address, channels⟩)

def resolveSocket (r : Resolver) (text : String) : Except ConfigError SocketAddress :=
  match r.socket text with
  | .ok s => .ok s
  | .error reason => .error (.unresolved text reason)

def ofFile (r : Resolver) (file : CollectorFile) : Except ConfigError CollectorConfig :=
  if file.broadcastCapacity = 0 then .error (.invalid .zeroCapacity)
  else do
    let sources ← file.sources.foldlM (addSource r) Registry.empty
    let listen ← resolveSocket r file.listen
    let clients ← file.clients.mapM (resolveSocket r)
    return ⟨listen, clients, file.broadcastCapacity, sources⟩

def parse (r : Resolver) (text : String) : Except ConfigError CollectorConfig :=
  match Toml.parse text with
  | none => .error .notToml
  | some es =>
      match CollectorFile.ofEntries es with
      | .error e => .error (.shape e)
      | .ok file => ofFile r file

end CollectorConfig
end Telemetry
