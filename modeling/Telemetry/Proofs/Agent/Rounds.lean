import Mathlib.Algebra.Group.Nat.Defs
import Telemetry.Proofs.Agent.Settings
import Telemetry.Proofs.Collector.Delivery

/-!
# Rounds — what an agent with the bundled probes ships

In each round every active key is sampled once, however many destinations list it
(`ProbeSet.Counts.sampleAll`), and the counting probe goes on from round to round, whatever hang-ups lie
between (`Agent.counts_run`).  So all destinations of a round are shipped the same record of a key, and
the record tells the number of the rounds with that key (`Agent.tick_ships`).
-/

namespace Telemetry

/-! ## Senders -/

/-- What gets through are the datagrams that the system does not refuse. -/
theorem MuxSender.sendAll_through (link : Link) (s : MuxSender) {ds : List (List UInt8)}
    (h : ∀ d ∈ ds, d.length ≤ maxDatagram) :
    (s.sendAll link ds).1 = ds.filter fun d => (link s.remote d).isNone := by
  induction ds using List.reverseRecOn with
  | nil => rfl
  | append_singleton ds d ih =>
      rw [List.forall_mem_append, List.forall_mem_singleton] at h
      rw [sendAll_concat, send, if_neg (Nat.not_lt.2 h.2), (s.sendAll_keeps link ds).2,
        List.filter_append, ← ih h.1]
      cases hlink : link s.remote d with
      | none => simp [hlink]
      | some fault => simp [hlink]

/-! ## Records -/

theorem syntheticRecord_values (tick : UInt64) :
    (syntheticRecord tick).values[0]? = some (.counter64 tick) := rfl

/-- The samples of keys go into datagrams that give them back, those aside that no packet can hold. -/
theorem exists_packets_samples (limit : PacketLimit) (timestamp : UInt64) (keys : List StreamKey)
    (record : StreamKey → Record) :
    let ms := keys.map fun k => k.measure (record k)
    ∃ packets : List Packet,
      (buildPackets limit timestamp ms).map Packet.parse = packets.map .ok
        ∧ (∀ p ∈ packets, p.timestamp = timestamp)
        ∧ packets.flatMap Packet.measurements = (ms.filter limit.admits).map .ok := by
  intro ms
  obtain ⟨ps, hdatagrams, hheld⟩ := exists_sealed_buildPackets limit timestamp ms
  -- each measurement that a packet holds is the sample of a key, whose argument is carried whole
  have hsample : ∀ p ∈ ps, ∀ m ∈ p.held, ∃ k : StreamKey, k.measure (record k) = m := by
    intro p hp m hm
    have hmem : m ∈ ms.filter limit.admits := hheld ▸ List.mem_flatMap.2 ⟨p, hp, hm⟩
    obtain ⟨k, -, hk⟩ := List.mem_map.1 (List.mem_filter.1 hmem).1
    exact ⟨k, hk⟩
  have hback : ∀ p ∈ ps, p.packet.measurements = p.held.map .ok := by
    intro p hp
    rw [p.measurements_packet]
    · apply List.map_congr_left
      intro m hm
      obtain ⟨k, rfl⟩ := hsample p hp m hm
      rw [k.carried_measure]
    · intro m hm
      obtain ⟨k, rfl⟩ := hsample p hp m hm
      exact k.noNul
  refine ⟨ps.map SealedPacket.packet, ?_, ?_, ?_⟩
  · rw [hdatagrams, List.map_map, List.map_map]
    exact List.map_congr_left fun p _ => p.parse_datagram
  · intro packet hpacket
    obtain ⟨p, -, rfl⟩ := List.mem_map.1 hpacket
    exact p.timestamp_packet
  · rw [List.flatMap_map, ← hheld, List.map_flatMap, List.flatMap_def, List.flatMap_def]
    exact congrArg List.flatten (List.map_congr_left hback)

theorem length_le_of_mem_buildPackets {limit : PacketLimit} {timestamp : UInt64}
    {ms : List Measurement} {d : List UInt8} (h : d ∈ buildPackets limit timestamp ms) :
    d.length ≤ maxDatagram := by
  obtain ⟨ps, hdatagrams, -⟩ := exists_sealed_buildPackets limit timestamp ms
  rw [hdatagrams] at h
  obtain ⟨p, -, rfl⟩ := List.mem_map.1 h
  exact Nat.le_trans (Nat.le_of_lt p.length_datagram) limit.le_greatest

namespace Agent

variable {a : Agent} {connector : Connector} {count : StreamKey → Nat}

/-! ## One round -/

/-- A destination is shipped the samples of its keys, one for each, as far as the system lets them
through. -/
theorem ship_through {samples : ProbeSet.Samples} {r : Route} {record : StreamKey → Record}
    (h : ∀ k ∈ r.keys, samples.get? k = some (record k)) (link : Link) (limit : PacketLimit)
    (timestamp : UInt64) :
    (ship link limit timestamp samples r).1
      = ((buildPackets limit timestamp (r.keys.map fun k => k.measure (record k))).filter
          fun d => (link r.sender.remote d).isNone).map fun d => (r.sender.remote, d) := by
  have hmeasurements : measurementsFor samples r.keys = r.keys.map fun k => k.measure (record k) := by
    rw [measurementsFor, ← List.filterMap_eq_map]
    apply List.filterMap_congr
    intro k hk
    rw [h k hk]
    rfl
  rw [ship]
  dsimp only
  rw [hmeasurements, MuxSender.sendAll_through link r.sender fun _ => length_le_of_mem_buildPackets]

/-! ## Counts along a run -/

namespace Event

def isTick : Event → Bool
  | .tick _ _ => true
  | .hangUp _ _ _ => false

/-- How many events are rounds with a configuration in force that lists a key. -/
def roundsListing (path : FilePath) (key : StreamKey) (c : AgentConfig) : List Event → Nat
  | [] => 0
  | e :: es =>
      (if e.isTick ∧ key ∈ c.sampledStreams then 1 else 0)
        + roundsListing path key ((e.connected? path).getD c) es

end Event

/-- How many rounds of a run have a key among the active ones. -/
def roundsWith (key : StreamKey) (serial : Nat) (a : Agent) : List Event → Nat
  | [] => 0
  | e :: es =>
      (if e.isTick ∧ key ∈ a.active then 1 else 0)
        + roundsWith key (serial + 1) (a.step serial e) es

theorem run_concat (serial : Nat) (a : Agent) (es : List Event) (e : Event) :
    a.run serial (es ++ [e]) = (a.run serial es).step (serial + es.length) e := by
  induction es generalizing serial a with
  | nil => rfl
  | cons e' es ih =>
      rw [List.cons_append, run, ih, run, List.length_cons, Nat.add_assoc, Nat.add_comm 1]

theorem roundsWith_concat (key : StreamKey) (serial : Nat) (a : Agent) (es : List Event) (e : Event) :
    a.roundsWith key serial (es ++ [e])
      = a.roundsWith key serial es
        + if e.isTick ∧ key ∈ (a.run serial es).active then 1 else 0 := by
  induction es generalizing serial a with
  | nil => rw [List.nil_append, roundsWith, roundsWith, roundsWith, run, Nat.add_comm]
  | cons e' es ih => rw [List.cons_append, roundsWith, ih, roundsWith, run, Nat.add_assoc]

/-- Putting a configuration to work sets no count back, whether it succeeds or not. -/
theorem counts_apply (h : a.probes.Counts count) (connector : Connector) (c : AgentConfig) :
    (a.apply connector c).2.probes.Counts count := by
  rw [apply]
  split
  · exact h
  · dsimp only
    split
    · exact h.prepare _
    · exact h.prepare _

theorem counts_hangUp (h : a.probes.Counts count) (connector : Connector) (resolver : Resolver)
    (files : Files) (serial : Nat) :
    (a.hangUp connector resolver files serial).probes.Counts count := by
  rw [hangUp]
  split
  · exact h
  next handle _ =>
      have hnext : ({ a with handle } : Agent).probes.Counts count := h
      exact counts_apply hnext connector _

theorem counts_start {handle : Handle AgentConfig} (h : start connector handle .bundled = some a) :
    a.probes.Counts fun _ => 0 := by
  rw [start] at h
  split at h
  next b happly =>
    cases h
    have hcounts := counts_apply (a := ⟨handle, handle.current.value.interval, PacketLimit.standard,
      .bundled, [], []⟩) ProbeSet.counts_bundled connector handle.current.value
    rw [happly] at hcounts
    exact hcounts
  next => contradiction

variable {path : FilePath} {takes : StreamKey → Bool} {loaded put : AgentConfig}

/-- The rounds with a key are those with a configuration in force that lists it. -/
theorem RunsOn.roundsWith_eq (h : a.RunsOn path takes loaded put) (serial : Nat) {key : StreamKey}
    (hkey : takes key = true) (es : List Event) :
    a.roundsWith key serial es = Event.roundsListing path key put es := by
  induction es generalizing a serial loaded put with
  | nil => rfl
  | cons e es ih =>
      have hactive : key ∈ a.active ↔ key ∈ put.sampledStreams := by
        rw [h.inForce.active, List.mem_filter]
        exact and_iff_left hkey
      rw [roundsWith, Event.roundsListing, ih (h.step serial e) (serial + 1)]
      simp only [hactive]

/-- A round samples each active key once more. -/
theorem RunsOn.counts_tick (hruns : a.RunsOn path takes loaded put) (h : a.probes.Counts count) :
    (∀ key ∈ a.active, (a.probes.sampleAll a.active).1.get? key
        = some (syntheticRecord (UInt64.ofNat (count key + 1))))
      ∧ (a.probes.sampleAll a.active).2.Counts fun key =>
          count key + if key ∈ a.active then 1 else 0 := by
  have hkind : ∀ key ∈ a.active, key.kind = .synthetic := by
    intro key hkey
    rw [hruns.inForce.active, ← hruns.probes, List.mem_filter, h.takes_eq] at hkey
    exact of_decide_eq_true hkey.2
  have hnodup : a.active.Nodup := by
    rw [hruns.inForce.active]
    exact put.firstMentions_sampledStreams.nodup.filter _
  obtain ⟨hget, hcounts⟩ := h.sampleAll hkind hnodup
  constructor
  · intro key hkey
    rw [hget, if_pos hkey]
  · convert hcounts using 2
    split
    · rfl
    · rfl

/-- The probe counts, for each key, the rounds that had it among the active ones. -/
theorem counts_run {handle : Handle AgentConfig} (h : start connector handle .bundled = some a)
    (serial : Nat) (es : List Event) :
    (a.run serial es).probes.Counts fun key => a.roundsWith key serial es := by
  induction es using List.reverseRecOn with
  | nil => exact counts_start h
  | append_singleton es e ih =>
      have hruns := (runsOn_start h).run serial es
      rw [run_concat]
      simp only [roundsWith_concat]
      cases e with
      | tick link timestamp => simpa [step, tick, Event.isTick] using (hruns.counts_tick ih).2
      | hangUp connector resolver files =>
          simpa [step, Event.isTick] using counts_hangUp ih connector resolver files _

/-! ## Rounds of a run -/

/-- If each active key has its record, each destination is shipped the records of those of its keys that
a probe takes. -/
theorem RunsOn.tick_through (h : a.RunsOn path takes loaded put) {record : StreamKey → Record}
    (hget : ∀ key ∈ a.active, (a.probes.sampleAll a.active).1.get? key = some (record key))
    (link : Link) (timestamp : UInt64) :
    (a.tick link timestamp).1 = put.muxes.entries.flatMap fun m =>
      ((buildPackets a.limit timestamp (((m.channels.entries.map Channel.key).filter takes).map
          fun k => k.measure (record k))).filter fun d => (link m.address d).isNone).map
        fun d => (m.address, d) := by
  rw [Agent.tick]
  dsimp only
  rw [List.flatMap_map, List.flatMap_def, List.flatMap_def]
  congr 1
  rw [eq_comm, ← List.forall₂_eq_eq_eq, List.forall₂_map_left_iff, List.forall₂_map_right_iff]
  -- destination by destination, each with its route
  have hroutes := (List.forall₂_and_left (p := (· ∈ put.muxes.entries)) _ _).2
    ⟨fun _ hm => hm, h.inForce.routes⟩
  refine hroutes.imp ?_
  rintro m r ⟨hm, hr⟩
  -- what is shipped is active, as the destination lists it
  have hactive : ∀ k ∈ r.keys, k ∈ a.active := by
    intro k hk
    rw [hr.keys, List.mem_filter] at hk
    rw [h.inForce.active, List.mem_filter]
    exact ⟨put.mem_sampledStreams hm hk.1, hk.2⟩
  rw [ship_through fun k hk => hget k (hactive k hk), hr.keys, hr.remote]

/-- In each round of any run every destination is shipped, in its own order, one record for each of its
keys with a probe, those aside that no packet can hold, and no others.  The record of a key is the same
for all destinations, and it tells how many rounds had the key among the active ones, this one included. -/
theorem tick_ships {connector : Connector} {handle : Handle AgentConfig} {a : Agent}
    (h : start connector handle .bundled = some a) (serial : Nat) (es : List Event)
    (timestamp : UInt64) :
    let b := a.run serial es
    let c := Event.last (Event.connected? handle.path) handle.current.value es
    let rounds := fun key => a.roundsWith key serial es + if key ∈ b.active then 1 else 0
    let record := fun key => syntheticRecord (UInt64.ofNat (rounds key))
    ∃ limit, limitOf c = .ok limit ∧ ∃ datagrams : Mux → List (List UInt8),
      (∀ link : Link, (b.tick link timestamp).1 = c.muxes.entries.flatMap fun m =>
          ((datagrams m).filter fun d => (link m.address d).isNone).map fun d => (m.address, d))
        ∧ (∀ m ∈ c.muxes.entries, ∃ packets : List Packet,
          (datagrams m).map Packet.parse = packets.map .ok
            ∧ (∀ p ∈ packets, p.timestamp = timestamp)
            ∧ packets.flatMap Packet.measurements
              = ((((m.channels.entries.map Channel.key).filter fun k =>
                    ProbeSet.bundled.supports k.kind).map fun k => k.measure (record k)).filter
                  fun measurement => headerSize + measurement.packedSize .current < limit.bytes).map
                .ok)
        ∧ ∀ key, rounds key < 2 ^ 64 →
          ∃ n, (record key).values[0]? = some (.counter64 n) ∧ n.toNat = rounds key := by
  intro b c rounds record
  have hruns : b.RunsOn handle.path ProbeSet.bundled.takes _ c := (runsOn_start h).run serial es
  have hcounts : b.probes.Counts fun key => a.roundsWith key serial es := counts_run h serial es
  have hget : ∀ key ∈ b.active, (b.probes.sampleAll b.active).1.get? key = some (record key) := by
    intro key hkey
    have hrounds : rounds key = a.roundsWith key serial es + 1 := by
      rw [show rounds key = _ + _ from rfl, if_pos hkey]
    rw [(hruns.counts_tick hcounts).1 key hkey, ← hrounds]
  have hprobed : ProbeSet.bundled.takes = fun k => ProbeSet.bundled.supports k.kind :=
    funext ProbeSet.takes_bundled
  rw [hprobed] at hruns
  refine ⟨b.limit, hruns.inForce.limit, _, fun link => hruns.tick_through hget link timestamp, ?_, ?_⟩
  · intro m _
    exact exists_packets_samples b.limit timestamp _ record
  · intro key hlt
    exact ⟨_, syntheticRecord_values _, UInt64.toNat_ofNat_of_lt hlt⟩

/-- Two destinations share a key that the second of three rounds goes without. -/
theorem tick_ships_sharedKey :
    let key : StreamKey := ⟨.synthetic, "a", by decide, by simp⟩
    let other : StreamKey := ⟨.cpu, "0", by decide, by simp⟩
    let remote : UInt8 → SocketAddress := fun n => ⟨.v4 ⟨10, 0, 0, n⟩, 0, 2100⟩
    let shared : AgentConfig := ⟨5, none,
      ⟨[⟨"a", remote 2, ⟨[⟨other, none⟩, ⟨key, none⟩]⟩⟩, ⟨"b", remote 3, ⟨[⟨key, none⟩]⟩⟩]⟩⟩
    let without : AgentConfig := ⟨5, none, ⟨[⟨"a", remote 2, ⟨[⟨other, none⟩]⟩⟩]⟩⟩
    ∃ (files files' : Files) (a : Agent),
      loadFile .literal files "a" = .ok without ∧ loadFile .literal files' "a" = .ok shared
        ∧ start .always ⟨"a", ⟨shared, 0⟩⟩ .bundled = some a
        ∧ let b := a.run 1 [.tick .unreachable 0, .hangUp .always .literal files, .tick .unreachable 5,
            .hangUp .always .literal files']
          ∃ datagrams : Mux → List (List UInt8),
            (b.tick (fun _ _ => none) 10).1
                = shared.muxes.entries.flatMap (fun m => (datagrams m).map fun d => (m.address, d))
              ∧ ∀ m ∈ shared.muxes.entries, ∃ packets : List Packet,
                (datagrams m).map Packet.parse = packets.map .ok
                  ∧ packets.flatMap Packet.measurements = [.ok (key.measure (syntheticRecord 2))] := by
  intro key other remote shared without
  let text := "[[mux]]\nname = \"a\"\naddress = \"10.0.0.2:2100\"\nstreams = [\"cpu(0)\"]\n"
  let text' := "[[mux]]\nname = \"a\"\naddress = \"10.0.0.2:2100\"\n"
    ++ "streams = [\"cpu(0)\", \"test(a)\"]\n"
    ++ "[[mux]]\nname = \"b\"\naddress = \"10.0.0.3:2100\"\nstreams = [\"test(a)\"]\n"
  have hwithout : (AgentConfig.parse .literal text).toOption = some without := by decide +kernel
  have hshared : (AgentConfig.parse .literal text').toOption = some shared := by decide +kernel
  obtain ⟨files, hfiles⟩ := exists_loadFile hwithout
  obtain ⟨files', hfiles'⟩ := exists_loadFile hshared
  obtain ⟨a, ha⟩ : ∃ a, start .always ⟨"a", ⟨shared, 0⟩⟩ .bundled = some a :=
    Option.isSome_iff_exists.1 (by decide +kernel)
  let es : List Event := [.tick .unreachable 0, .hangUp .always .literal files,
    .tick .unreachable 5, .hangUp .always .literal files']
  have hyes : without.connects .always = true := by decide +kernel
  have hyes' : shared.connects .always = true := by decide +kernel
  have hput : Event.last (Event.connected? "a") shared es = shared := by
    simp [es, Event.last, Event.connected?_hangUp hfiles, Event.connected?_hangUp hfiles', hyes, hyes']
  have hlisted : key ∈ shared.sampledStreams := by decide +kernel
  have hnot : key ∉ without.sampledStreams := by decide +kernel
  have hbefore : a.roundsWith key 1 es = 1 := by
    rw [(runsOn_start ha).roundsWith_eq 1 (by decide +kernel)]
    simp [es, Event.roundsListing, Event.isTick, Event.connected?_hangUp hfiles, hyes, hlisted, hnot]
  have hactive : key ∈ (a.run 1 es).active := by
    rw [((runsOn_start ha).run 1 es).inForce.active, hput, List.mem_filter]
    exact ⟨hlisted, by decide +kernel⟩
  obtain ⟨limit, hlimit, datagrams, hthrough, hpackets, -⟩ := tick_ships ha 1 es 10
  rw [hput] at hlimit hthrough hpackets
  cases Except.ok.inj hlimit
  have hprobed : ∀ m ∈ shared.muxes.entries,
      (m.channels.entries.map Channel.key).filter (fun k => ProbeSet.bundled.supports k.kind) = [key] := by
    decide +kernel
  have hfits : [key.measure (syntheticRecord 2)].filter
      (fun m => headerSize + m.packedSize .current < PacketLimit.standard.bytes)
        = [key.measure (syntheticRecord 2)] := by
    decide +kernel
  refine ⟨files, files', a, hfiles, hfiles', ha, datagrams, ?_, ?_⟩
  · rw [hthrough]
    simp
  · intro m hm
    obtain ⟨packets, hparse, -, hback⟩ := hpackets m hm
    refine ⟨packets, hparse, ?_⟩
    rw [hback, hprobed m hm, List.map_singleton]
    dsimp only
    rw [hbefore, if_pos hactive]
    exact congrArg (List.map Except.ok) hfits

end Agent
end Telemetry
