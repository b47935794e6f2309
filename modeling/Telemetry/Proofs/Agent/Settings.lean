import Telemetry.Agent.Agent
import Telemetry.Proofs.Agent.Probing
import Telemetry.Proofs.Config.Reloading
import Telemetry.Proofs.Config.Sampling
import Telemetry.Proofs.Transport.Throttling

/-!
# Settings — the configuration that an agent runs on

The packet limit, the active keys and the routes of an agent always stem from one configuration: that of
the last hang-up which had a socket for every destination.  The period stems from the last configuration
that was read, with sockets or without (`Agent.run_settings`).
-/

namespace Telemetry

/-- There is a socket for every destination. -/
def AgentConfig.connects (connector : Connector) (c : AgentConfig) : Bool :=
  c.muxes.entries.all fun m => (connector m).isNone

namespace Agent

/-! ## What events bring -/

namespace Event

def loaded? (path : FilePath) : Event → Option AgentConfig
  | .tick _ _ => none
  | .hangUp _ resolver files => (loadFile resolver files path).toOption

/-- The configuration that an event reads and has all the sockets for. -/
def connected? (path : FilePath) : Event → Option AgentConfig
  | .tick _ _ => none
  | .hangUp connector resolver files =>
      (loadFile resolver files path).toOption.filter fun c => c.connects connector

@[simp]
theorem loaded?_tick {link : Link} {timestamp : UInt64} {path : FilePath} :
    (tick link timestamp).loaded? path = none := rfl

@[simp]
theorem connected?_tick {link : Link} {timestamp : UInt64} {path : FilePath} :
    (tick link timestamp).connected? path = none := rfl

theorem loaded?_hangUp {connector : Connector} {resolver : Resolver} {files : Files} {path : FilePath}
    {c : AgentConfig} (h : loadFile resolver files path = .ok c) :
    (hangUp connector resolver files).loaded? path = some c := by
  rw [loaded?, h]
  rfl

theorem connected?_hangUp {connector : Connector} {resolver : Resolver} {files : Files}
    {path : FilePath} {c : AgentConfig} (h : loadFile resolver files path = .ok c) :
    (hangUp connector resolver files).connected? path
      = if c.connects connector then some c else none := by
  rw [connected?, h]
  exact Option.filter_some

/-- The configuration that events bring last; the one before them if they bring none. -/
def last (brings : Event → Option AgentConfig) (c : AgentConfig) (es : List Event) : AgentConfig :=
  es.foldl (fun c e => (brings e).getD c) c

theorem last_congr {brings brings' : Event → Option AgentConfig} {es : List Event}
    (h : ∀ e ∈ es, brings e = brings' e) (c : AgentConfig) : last brings c es = last brings' c es :=
  List.foldl_ext _ _ c fun c e he => by rw [h e he]

end Event

/-! ## Routes -/

def route (active : List StreamKey) (m : Mux) : Route :=
  ⟨MuxSender.start m.name m.address,
    (m.channels.entries.map Channel.key).filter fun k => active.contains k⟩

variable {connector : Connector} {active : List StreamKey} {c : AgentConfig} {a : Agent}

theorem routeTo_eq_ok_iff {m : Mux} {r : Route} :
    routeTo connector active m = .ok r ↔ connector m = none ∧ route active m = r := by
  rw [routeTo]
  cases hconnector : connector m with
  | some fault => simp
  | none => simp [route]

theorem mapM_routeTo_eq_ok_iff {routes : List Route} :
    c.muxes.entries.mapM (routeTo connector active) = .ok routes ↔
      c.connects connector = true ∧ routes = c.muxes.entries.map (route active) := by
  rw [mapM_eq_ok_iff, AgentConfig.connects, List.all_eq_true]
  simp only [routeTo_eq_ok_iff, List.forall₂_and_left, Option.isNone_iff_eq_none]
  rw [← List.forall₂_map_left_iff (f := route active) (R := Eq), List.forall₂_eq_eq_eq, eq_comm]

structure Serves (takes : StreamKey → Bool) (m : Mux) (r : Route) : Prop where
  name : r.sender.name = m.name
  remote : r.sender.remote = m.address
  keys : r.keys = (m.channels.entries.map Channel.key).filter takes

theorem serves_routes (c : AgentConfig) (takes : StreamKey → Bool) :
    List.Forall₂ (Serves takes) c.muxes.entries
      (c.muxes.entries.map (route (c.sampledStreams.filter takes))) := by
  rw [List.forall₂_map_right_iff, List.forall₂_same]
  intro m hm
  refine ⟨rfl, rfl, List.filter_congr fun k hk => ?_⟩
  -- what a destination lists is sampled, so a probe that takes it makes it active
  have hsampled := c.mem_sampledStreams hm hk
  rw [Bool.eq_iff_iff, List.contains_iff_mem, List.mem_filter, and_iff_right hsampled]

theorem Serves.ship {takes : StreamKey → Bool} {m : Mux} {r : Route} (h : Serves takes m r)
    (link : Link) (limit : PacketLimit) (timestamp : UInt64) (samples : ProbeSet.Samples) :
    Serves takes m (Agent.ship link limit timestamp samples r).2 := by
  obtain ⟨hname, hremote⟩ := r.sender.sendAll_keeps link
    (buildPackets limit timestamp (measurementsFor samples r.keys))
  exact ⟨hname.trans h.name, hremote.trans h.remote, h.keys⟩

/-! ## Putting a configuration to work -/

theorem exists_limitOf (h : c.Valid) : ∃ limit, limitOf c = .ok limit := by
  rw [limitOf]
  cases hsize : c.maxPacketSize with
  | none => exact ⟨_, rfl⟩
  | some size => exact ⟨⟨size, _, _⟩, dif_pos (h.maxPacketSize size hsize)⟩

/-- With all sockets, everything is replaced; else only the probes are prepared. -/
theorem apply_eq {limit : PacketLimit} (hlimit : limitOf c = .ok limit) :
    a.apply connector c =
      let active := c.sampledStreams.filter a.probes.takes
      let probes := (a.probes.prepare c.sampledStreams).2
      if c.connects connector then
        (true, { a with limit, probes, active, routes := c.muxes.entries.map (route active) })
      else (false, { a with probes }) := by
  rw [apply, hlimit]
  dsimp only
  rw [ProbeSet.prepare_fst]
  split
  next fault hfault =>
    rw [if_neg]
    intro hconnects
    rw [mapM_routeTo_eq_ok_iff.2 ⟨hconnects, rfl⟩] at hfault
    contradiction
  next routes hroutes =>
    obtain ⟨hconnects, rfl⟩ := mapM_routeTo_eq_ok_iff.1 hroutes
    rw [if_pos hconnects]

/-- Limit, active keys and routes are those of a configuration. -/
structure InForce (takes : StreamKey → Bool) (c : AgentConfig) (a : Agent) : Prop where
  limit : limitOf c = .ok a.limit
  active : a.active = c.sampledStreams.filter takes
  routes : List.Forall₂ (Serves takes) c.muxes.entries a.routes

/-! ## One event -/

/-- An agent on the file at `path` that has read `loaded` last, and `put` last with all the sockets. -/
structure RunsOn (path : FilePath) (takes : StreamKey → Bool) (loaded put : AgentConfig)
    (a : Agent) : Prop where
  path : a.handle.path = path
  current : a.handle.current.value = loaded
  period : a.period = loaded.interval
  probes : a.probes.takes = takes
  inForce : a.InForce takes put

variable {path : FilePath} {takes : StreamKey → Bool} {loaded put : AgentConfig}

/-- A start needs all the sockets. -/
theorem runsOn_start {handle : Handle AgentConfig} {probes : ProbeSet}
    (h : start connector handle probes = some a) :
    a.RunsOn handle.path probes.takes handle.current.value handle.current.value := by
  rw [start] at h
  split at h
  next b happly =>
    cases h
    cases hlimit : limitOf handle.current.value with
    | error e => simp [apply, hlimit] at happly
    | ok limit =>
        rw [apply_eq hlimit] at happly
        dsimp only at happly
        split at happly
        · cases happly
          exact ⟨rfl, rfl, rfl, ProbeSet.takes_prepare _ _, hlimit, rfl, serves_routes _ _⟩
        · simp at happly
  next => contradiction

/-- A round leaves the settings as they are. -/
theorem RunsOn.tick (h : a.RunsOn path takes loaded put) (link : Link) (timestamp : UInt64) :
    (a.tick link timestamp).2.RunsOn path takes loaded put where
  path := h.path
  current := h.current
  period := h.period
  probes := (ProbeSet.takes_sampleAll _ _).trans h.probes
  inForce :=
    { limit := h.inForce.limit
      active := h.inForce.active
      routes := by
        rw [Agent.tick]
        dsimp only
        rw [List.map_map, List.forall₂_map_right_iff]
        exact h.inForce.routes.imp fun m r hr => hr.ship link a.limit timestamp _ }

/-- What a hang-up reads is current; it is in force too if there are the sockets for it. -/
theorem RunsOn.hangUp (h : a.RunsOn path takes loaded put) (connector : Connector)
    (resolver : Resolver) (files : Files) (serial : Nat) :
    (a.hangUp connector resolver files serial).RunsOn path takes
      (((Event.hangUp connector resolver files).loaded? path).getD loaded)
      (((Event.hangUp connector resolver files).connected? path).getD put) := by
  rw [Agent.hangUp, Handle.reload, h.path]
  cases hload : (loadFile resolver files path : Except ConfigError AgentConfig) with
  | error fault =>
      -- nothing is read, and nothing changes
      rw [Event.loaded?, Event.connected?, hload]
      exact h
  | ok c =>
      obtain ⟨limit, hlimit⟩ := exists_limitOf (loadFile_eq_ok_iff.1 hload).valid
      rw [Event.loaded?_hangUp hload, Event.connected?_hangUp hload]
      dsimp only [Except.map]
      rw [apply_eq hlimit]
      dsimp only
      rw [h.probes]
      have htakes : (a.probes.prepare c.sampledStreams).2.takes = takes :=
        (ProbeSet.takes_prepare _ _).trans h.probes
      split
      next hconnects => exact ⟨rfl, rfl, rfl, htakes, hlimit, rfl, serves_routes c takes⟩
      next hconnects =>
        -- handle and period are those of the new configuration, the rest is what it was
        exact ⟨rfl, rfl, rfl, htakes, h.inForce.limit, h.inForce.active, h.inForce.routes⟩

theorem RunsOn.step (h : a.RunsOn path takes loaded put) (serial : Nat) (e : Event) :
    (a.step serial e).RunsOn path takes ((e.loaded? path).getD loaded)
      ((e.connected? path).getD put) := by
  cases e with
  | tick link timestamp => exact h.tick link timestamp
  | hangUp connector resolver files => exact h.hangUp connector resolver files serial

/-! ## Runs -/

theorem RunsOn.run (h : a.RunsOn path takes loaded put) (serial : Nat) (es : List Event) :
    (a.run serial es).RunsOn path takes (Event.last (Event.loaded? path) loaded es)
      (Event.last (Event.connected? path) put es) := by
  induction es generalizing a serial loaded put with
  | nil => exact h
  | cons e es ih => exact ih (h.step serial e) (serial + 1)

/-- At any time of any run, the packet limit, the active keys and the routes are those of the
configuration that was read last with all the sockets, and the period is that of the one that was read
last.  It is one and the same as long as each reading had all the sockets. -/
theorem run_settings {connector : Connector} {handle : Handle AgentConfig} {probes : ProbeSet}
    {a : Agent} (h : start connector handle probes = some a) (serial : Nat) (es : List Event) :
    let loaded := Event.last (Event.loaded? handle.path) handle.current.value es
    let put := Event.last (Event.connected? handle.path) handle.current.value es
    let b := a.run serial es
    b.handle.current.value = loaded ∧ b.period = loaded.interval
      ∧ limitOf put = .ok b.limit ∧ b.active = put.sampledStreams.filter probes.takes
      ∧ List.Forall₂
          (fun m r => r.sender.name = m.name ∧ r.sender.remote = m.address
            ∧ r.keys = (m.channels.entries.map Channel.key).filter probes.takes)
          put.muxes.entries b.routes
      ∧ ((∀ e ∈ es, e.loaded? handle.path = e.connected? handle.path) → put = loaded) := by
  intro loaded put b
  have hruns : b.RunsOn handle.path probes.takes loaded put := (runsOn_start h).run serial es
  refine ⟨hruns.current, hruns.period, hruns.inForce.limit, hruns.inForce.active, ?_, ?_⟩
  · exact hruns.inForce.routes.imp fun m r hr => ⟨hr.name, hr.remote, hr.keys⟩
  · intro hsame
    exact (Event.last_congr hsame _).symm

/-- Some files offer a configuration that a text describes. -/
theorem exists_loadFile {text : String} {c : AgentConfig}
    (h : (AgentConfig.parse .literal text).toOption = some c) :
    ∃ files, loadFile .literal files "a" = .ok c := by
  obtain ⟨files, -, -, hread⟩ := Files.writable_fresh.write (Utf8.encode text)
  refine ⟨files, ?_⟩
  rw [loadFile, hread]
  dsimp only
  rw [Utf8.decode_encode]
  exact ok_of_toOption h

/-- The sockets for the second configuration are not to be had: the period is its own all the same. -/
theorem run_settings_withoutSocket :
    let key : StreamKey := ⟨.synthetic, "a", by decide, by simp⟩
    let remote : SocketAddress := ⟨.v4 ⟨10, 0, 0, 2⟩, 0, 2100⟩
    let initial : AgentConfig := ⟨3, none, ⟨[]⟩⟩
    let first : AgentConfig := ⟨5, some 1000, ⟨[⟨"10.0.0.2:2100", remote, ⟨[⟨key, none⟩]⟩⟩]⟩⟩
    let second : AgentConfig := ⟨7, some 100, ⟨[⟨"b", remote, ⟨[]⟩⟩]⟩⟩
    ∃ (files files' : Files) (a : Agent),
      loadFile .literal files "a" = .ok first ∧ loadFile .literal files' "a" = .ok second
        ∧ start .always ⟨"a", ⟨initial, 0⟩⟩ .bundled = some a
        ∧ let b := a.run 1 [.hangUp .always .literal files, .tick .unreachable 0,
            .hangUp (fun _ => some .outOfMemory) .literal files', .tick .unreachable 7]
          b.period = 7 ∧ limitOf first = .ok b.limit ∧ b.active = [key]
            ∧ b.routes.map (fun r => (r.sender.name, r.keys)) = [("10.0.0.2:2100", [key])] := by
  intro key remote initial first second
  let text := "interval_secs = 5\nmax_packet_size = 1000\n"
    ++ "[[mux]]\naddress = \"10.0.0.2:2100\"\nstreams = [\"test(a)\"]\n"
  let text' := "interval_secs = 7\nmax_packet_size = 100\n"
    ++ "[[mux]]\nname = \"b\"\naddress = \"10.0.0.2:2100\"\nstreams = []\n"
  have hfirst : (AgentConfig.parse .literal text).toOption = some first := by decide +kernel
  have hsecond : (AgentConfig.parse .literal text').toOption = some second := by decide +kernel
  obtain ⟨files, hfiles⟩ := exists_loadFile hfirst
  obtain ⟨files', hfiles'⟩ := exists_loadFile hsecond
  obtain ⟨a, ha⟩ : ∃ a, start .always ⟨"a", ⟨initial, 0⟩⟩ .bundled = some a :=
    Option.isSome_iff_exists.1 (by decide +kernel)
  let es : List Event := [.hangUp .always .literal files, .tick .unreachable 0,
    .hangUp (fun _ => some .outOfMemory) .literal files', .tick .unreachable 7]
  have hloaded : Event.last (Event.loaded? "a") initial es = second := by
    simp [es, Event.last, Event.loaded?_hangUp hfiles']
  have hput : Event.last (Event.connected? "a") initial es = first := by
    have hyes : first.connects .always = true := by decide +kernel
    have hno : second.connects (fun _ => some .outOfMemory) = false := by decide +kernel
    simp [es, Event.last, Event.connected?_hangUp hfiles, Event.connected?_hangUp hfiles', hyes, hno]
  obtain ⟨-, hperiod, hlimit, hactive, hroutes, -⟩ := run_settings ha 1 es
  rw [hput] at hlimit hactive hroutes
  rw [hloaded] at hperiod
  refine ⟨files, files', a, hfiles, hfiles', ha, hperiod, hlimit, ?_, ?_⟩
  · rw [hactive]
    decide +kernel
  · generalize (a.run 1 es).routes = routes at hroutes ⊢
    obtain _ | ⟨⟨hname, -, hkeys⟩, _ | _⟩ := hroutes
    rw [List.map_singleton, hname, hkeys]
    decide +kernel

/-- The settings do not always stem from one configuration that was read. -/
theorem not_run_settings_of_one :
    ¬∀ {connector : Connector} {handle : Handle AgentConfig} {probes : ProbeSet} {a : Agent},
      start connector handle probes = some a → ∀ (serial : Nat) (es : List Event),
        ∃ c, (c = handle.current.value ∨ ∃ e ∈ es, e.loaded? handle.path = some c)
          ∧ (a.run serial es).period = c.interval ∧ (a.run serial es).InForce probes.takes c := by
  intro hone
  let key : StreamKey := ⟨.synthetic, "a", by decide, by simp⟩
  let remote : SocketAddress := ⟨.v4 ⟨10, 0, 0, 2⟩, 0, 2100⟩
  let initial : AgentConfig := ⟨5, none, ⟨[]⟩⟩
  let other : AgentConfig := ⟨7, none, ⟨[⟨"10.0.0.2:2100", remote, ⟨[⟨key, none⟩]⟩⟩]⟩⟩
  let text := "interval_secs = 7\n[[mux]]\naddress = \"10.0.0.2:2100\"\nstreams = [\"test(a)\"]\n"
  have hother : (AgentConfig.parse .literal text).toOption = some other := by decide +kernel
  obtain ⟨files, hfiles⟩ := exists_loadFile hother
  obtain ⟨a, ha⟩ : ∃ a, start .always ⟨"a", ⟨initial, 0⟩⟩ .bundled = some a :=
    Option.isSome_iff_exists.1 (by decide +kernel)
  let es : List Event := [.hangUp (fun _ => some .outOfMemory) .literal files]
  have hloaded : Event.last (Event.loaded? "a") initial es = other := by
    simp [es, Event.last, Event.loaded?_hangUp hfiles]
  have hput : Event.last (Event.connected? "a") initial es = initial := by
    have hno : other.connects (fun _ => some .outOfMemory) = false := by decide +kernel
    simp [es, Event.last, Event.connected?_hangUp hfiles, hno]
  have hruns := (runsOn_start ha).run 1 es
  rw [hloaded, hput] at hruns
  obtain ⟨c, hc, hperiod, hinForce⟩ := hone ha 1 es
  rcases hc with rfl | ⟨e, he, hread⟩
  · -- the period is not that of the first configuration
    rw [hruns.period] at hperiod
    exact absurd hperiod (by decide)
  · -- the keys are not those of the second
    rw [List.mem_singleton.1 he, Event.loaded?, hfiles] at hread
    cases hread
    have hactive := hruns.inForce.active.symm.trans hinForce.active
    revert hactive
    decide +kernel

end Agent
end Telemetry
