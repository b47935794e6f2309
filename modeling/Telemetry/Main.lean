import Std.Async.Signal
import Std.Async.TCP
import Std.Async.UDP
import Telemetry.CommandLine

/-!
# Running the programs

`main` takes the name of a program and its arguments.  A service waits for what comes next, the time of a
round, a signal, a datagram or a client, and hands it to the library; what the library answers goes out
to sockets and series files.
-/

namespace Telemetry

open Std.Async

/-! ## Addresses -/

def SocketAddress.toNet (s : SocketAddress) : Std.Net.SocketAddress :=
  match s.ip with
  | .v4 ip => .v4 ⟨.ofParts ip.a ip.b ip.c ip.d, s.port⟩
  | .v6 ip => .v6 ⟨⟨ip.groups.toArray, by simp [ip.length_groups]⟩, s.port⟩

def SocketAddress.ofNet : Std.Net.SocketAddress → SocketAddress
  | .v4 s =>
      ⟨.v4 ⟨s.addr.octets[0], s.addr.octets[1], s.addr.octets[2], s.addr.octets[3]⟩, 0, s.port⟩
  | .v6 s => ⟨.v6 ⟨s.addr.segments.toList, by simp⟩, 0, s.port⟩

/-! ## Files -/

/-- Bring the configuration file into a tree, and the folders of the series files that it names, as far
as they are there. -/
def survey (fs : Files) (path : FilePath) : IO Files := do
  let fs ←
    try
      let bytes ← IO.FS.readBinFile path
      pure ((fs.place path bytes.toList).toOption.getD fs)
    catch _ => pure ((fs.remove path).toOption.getD fs)
  let here ← IO.currentDir
  match loadFile Resolver.literal fs path with
  | .error _ => return fs
  | .ok (config : CollectorConfig) =>
      config.seriesFolders.foldlM
        (fun fs (folder : FilePath) => do
          if ← (here / folder).isDir then return (fs.makeFolders folder).toOption.getD fs
          else return fs)
        fs

/-- Write to disk what the series files hold. -/
def store (series : Series) : IO Series := do
  let (taken, series) := series.flush
  for (l, bytes) in taken do
    try
      let file ← IO.FS.Handle.mk (Files.pathOf l) .append
      file.write bytes.toByteArray
    catch _ => pure ()
  return series

/-! ## Signals -/

/-- A signal that is listened to, with the task that ends when it comes. -/
structure Listener where
  waiter : Signal.Waiter
  task : IO.Ref (AsyncTask Int)

namespace Listener

def install (signal : Signal) : IO Listener := do
  let waiter ← Signal.Waiter.mk signal true
  return ⟨waiter, ← IO.mkRef (← waiter.wait)⟩

/-- Whether the signal came since this was asked last. -/
def heard (l : Listener) : IO Bool := do
  if ← IO.hasFinished (← l.task.get) then
    l.task.set (← l.waiter.wait)
    return true
  else return false

end Listener

structure Signals where
  hangUp : Listener
  interrupt : Listener
  terminate : Listener

namespace Signals

def install : IO Signals := do
  return ⟨← Listener.install .sighup, ← Listener.install .sigint, ← Listener.install .sigterm⟩

def stopHeard (s : Signals) : IO Bool := do
  if ← s.interrupt.heard then return true else s.terminate.heard

def next (s : Signals) : IO (List (Task (Except IO.Error Int))) :=
  [s.hangUp, s.interrupt, s.terminate].mapM fun l => l.task.get

def stop (s : Signals) : IO Unit := do
  s.hangUp.waiter.stop
  s.interrupt.waiter.stop
  s.terminate.waiter.stop

end Signals

/-- Milliseconds in which an agent notices a signal. -/
def patience : Nat := 100

/-! ## The agent -/

def unixTime : IO UInt64 := do
  return (← Std.Time.Timestamp.now).toSecondsSinceUnixEpoch.val.toNat.toUInt64

/-- Send datagrams; those that the system refused are answered. -/
def sendAll (socket : UDP.Socket) (datagrams : List (SocketAddress × List UInt8)) :
    Async (List (SocketAddress × List UInt8)) :=
  datagrams.filterM fun (remote, bytes) => do
    try
      socket.send bytes.toByteArray (some remote.toNet)
      return false
    catch _ => return true

/-- Run an agent, whose next round is due at a time of the monotone clock in milliseconds. -/
partial def runAgent (signals : Signals) (socket : UDP.Socket) (a : Agent) (serial due : Nat) :
    IO Unit := do
  let now ← IO.monoMsNow
  if ← signals.stopHeard then return ()
  else if ← signals.hangUp.heard then
    let files ← survey Files.fresh a.handle.path
    let a' := a.hangUp Connector.always Resolver.literal files serial
    runAgent signals socket a' (serial + 1) (if a'.period = a.period then due else now)
  else if due ≤ now then
    let timestamp ← unixTime
    let refused ← (sendAll socket (a.tick (fun _ _ => none) timestamp).1).block
    let link : Link := fun remote bytes =>
      if refused.contains (remote, bytes) then some .networkUnreachable else none
    runAgent signals socket (a.tick link timestamp).2 (serial + 1) (now + a.period * 1000)
  else
    IO.sleep (min (due - now) patience).toUInt32
    runAgent signals socket a serial due

/-! ## The collector -/

inductive Wake where
  | signal
  | datagram (sender : SocketAddress) (bytes : List UInt8)
  | client (socket : TCP.Socket.Client)
  /-- a socket gave nothing -/
  | noDatagram
  | noClient

structure Sockets where
  datagrams : UDP.Socket
  clients : Option TCP.Socket.Server

namespace Sockets

def bind (c : Collector) : IO Sockets := do
  let datagrams ← UDP.Socket.mk
  datagrams.bind c.receiver.address.toNet
  let clients ← c.clients.mapM fun address => do
    let server ← TCP.Socket.Server.mk
    server.bind address.toNet
    server.listen 128
    pure server
  return ⟨datagrams, clients⟩

def nextDatagram (s : Sockets) : IO (Task Wake) := do
  let received ← (s.datagrams.recv (maxDatagram + 1).toUInt64).toIO
  let wake : Except IO.Error (ByteArray × Option Std.Net.SocketAddress) → Wake := fun
    | .ok (bytes, some sender) => .datagram (.ofNet sender) bytes.toList
    | _ => .noDatagram
  return Task.map wake received

/-- Wait for the next client; without a socket for them none ever comes. -/
def nextClient (s : Sockets) : IO (Option (Task Wake)) :=
  s.clients.mapM fun server => do
    let accepted ← server.accept.toIO
    let wake : Except IO.Error TCP.Socket.Client → Wake := fun
      | .ok socket => .client socket
      | .error _ => .noClient
    return Task.map wake accepted

end Sockets

/-- Serve a client until it has to wait or its serving ends. -/
partial def serveClient (relay : Relay) (i : Nat) (socket : TCP.Socket.Client) : Async Relay := do
  let relay := relay.serveToWrite i
  match relay.clients[i]?.map Client.stage with
  | some (.writing bytes) =>
      let outcome ←
        try
          socket.send bytes.toByteArray
          pure WriteOutcome.taken
        catch _ => pure (.refused 0)
      serveClient (relay.serve i outcome) i socket
  | _ => return relay

/-- Handle a datagram, store what the series took, and serve every client. -/
def collect (c : Collector) (clients : Array TCP.Socket.Client) (sender : SocketAddress)
    (bytes : List UInt8) : IO Collector := do
  let c := (c.drain [.datagram sender bytes]).2.1
  let series ← store c.demux.series
  let served := clients.zipIdx.foldlM (fun relay (socket, i) => serveClient relay i socket) c.relay
  return { c with demux := { c.demux with series := series }, relay := (← served.block).forget }

def reloadCollector (c : Collector) (serial : Nat) : IO Collector := do
  let series := c.demux.series
  let files ← survey series.files c.handle.path
  let c := { c with demux := { c.demux with series := { series with files := files } } }
  return c.reload Resolver.literal files serial

/-- Run a collector with the sockets of its clients, in the order in which they came. -/
partial def runCollector (signals : Signals) (sockets : Sockets) (c : Collector)
    (clients : Array TCP.Socket.Client) (serial : Nat) (datagram : Task Wake)
    (client : Option (Task Wake)) : IO Unit := do
  let raised := (← signals.next).map fun t => t.map fun _ => Wake.signal
  let wake ← IO.waitAny (datagram :: (client.toList ++ raised))
  if ← signals.stopHeard then return ()
  let c ← if ← signals.hangUp.heard then reloadCollector c serial else pure c
  let serial := serial + 1
  match wake with
  | .signal => runCollector signals sockets c clients serial datagram client
  | .datagram sender bytes =>
      let c ← collect c clients sender bytes
      runCollector signals sockets c clients serial (← sockets.nextDatagram) client
  | .noDatagram => runCollector signals sockets c clients serial (← sockets.nextDatagram) client
  | .client socket =>
      let c := (c.acceptAll [.client true true]).2.1
      runCollector signals sockets c (clients.push socket) serial datagram (← sockets.nextClient)
  | .noClient => runCollector signals sockets c clients serial datagram (← sockets.nextClient)

/-! ## Starting -/

/-- Run a service until it is told to stop. -/
def Service.run (service : Service) : IO Unit := do
  let signals ← Signals.install
  match service with
  | .agent a =>
      let socket ← UDP.Socket.mk
      runAgent signals socket a 1 (← IO.monoMsNow)
  | .collector c =>
      let sockets ← Sockets.bind c
      runCollector signals sockets c #[] 1 (← sockets.nextDatagram) (← sockets.nextClient)
  signals.stop

/-- The machine as a program finds it. -/
def surveyMachine (p : Program) (arguments : List String) : IO Machine := do
  let path := match Request.ofArguments arguments with
    | .run o => o.config.getD p.defaultConfig
    | _ => p.defaultConfig
  let here := (← IO.currentDir).components.filter fun part => part != "" && part != "/"
  let files ← survey (Files.workingIn here) path
  let interfaces := match loadFile Resolver.literal files path with
    | .error _ => []
    | .ok (config : CollectorConfig) => config.addresses
  return { Machine.fresh with files := files, network := ⟨some interfaces, true⟩ }

/-- Run the program that the first argument names; the status it ends with is answered. -/
def runProgram (arguments : List String) : IO UInt32 := do
  match arguments with
  | name :: rest =>
      match Program.ofName? name with
      | none => return 2
      | some p =>
          match p.start Resolver.literal (← surveyMachine p rest) rest with
          | .ended output status =>
              IO.print output
              return status.toUInt32
          | .running service =>
              try
                service.run
                return 0
              catch _ => return 1
  | [] => return 2

end Telemetry

def main (arguments : List String) : IO UInt32 :=
  Telemetry.runProgram arguments
