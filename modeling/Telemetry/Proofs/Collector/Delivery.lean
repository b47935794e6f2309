import Telemetry.Collector.Demux
import Telemetry.Proofs.Packet.RollOver

/-!
# Delivery — from an agent's samples to a collector's lines

A `Demux.Call` is one datagram as it comes in, and `Demux.run` handles calls one after another.
Handling the datagrams of `buildPackets` from a known source loses, repeats, reorders and alters
nothing: the entries of the lines are those of the measurements that fit a packet and that the
source may send (`Demux.run_buildPackets`).
-/

namespace Telemetry

def Source.accepts (s : Source) (m : Measurement) : Bool :=
  (s.accepts? m.kind m.argument).isSome

/-- The counters after `packets` packets with the given measurements. -/
def DemuxStats.after (s : DemuxStats) (packets : Nat) (source : Source) (ms : List Measurement) :
    DemuxStats :=
  { s with
    packets := s.packets + packets
    records := s.records + ms.countP source.accepts
    droppedRecords := s.droppedRecords + ms.countP fun m => !source.accepts m }

theorem DemuxStats.after_after (s : DemuxStats) (packets packets' : Nat) (source : Source)
    (ms ms' : List Measurement) :
    (s.after packets source ms).after packets' source ms'
      = s.after (packets + packets') source (ms ++ ms') := by
  simp only [after, List.countP_append, Nat.add_assoc]

namespace Demux

/-! ## One packet -/

theorem map_snd_acceptedFrom (source : Source) (ms : List Measurement) :
    (acceptedFrom source ms).map (·.2) = ms.filter source.accepts := by
  induction ms with
  | nil =>
      rfl
  | cons m ms ih =>
      cases h : source.accepts? m.kind m.argument with
      | none =>
          have hno : ¬source.accepts m = true := by simp [Source.accepts, h]
          rw [List.filter_cons_of_neg hno, ← ih]
          simp [acceptedFrom, h]
      | some c =>
          have hyes : source.accepts m = true := by simp [Source.accepts, h]
          rw [List.filter_cons_of_pos hyes, ← ih]
          simp [acceptedFrom, h]

theorem length_acceptedFrom (source : Source) (ms : List Measurement) :
    (acceptedFrom source ms).length = ms.countP source.accepts := by
  rw [List.countP_eq_length_filter, ← map_snd_acceptedFrom, List.length_map]

/-- The line with the given entries; there is none without entries. -/
def lineOf (host : String) (entries : List String) : Option String :=
  if entries.isEmpty then none else some (host ++ ";" ++ String.join entries ++ "\n")

theorem route_eq (d : Demux) (source : Source) (p : Packet) :
    (d.route source p).1
        = lineOf source.host ((p.wellFormed.filter source.accepts).map (entryText p.timestamp))
      ∧ (d.route source p).2.stats = d.stats.after 1 source p.wellFormed := by
  have hdropped : p.wellFormed.length - (acceptedFrom source p.wellFormed).length
      = p.wellFormed.countP fun m => !source.accepts m := by
    have h := List.length_eq_countP_add_countP source.accepts (l := p.wellFormed)
    simp only [Bool.not_eq_true, Bool.decide_eq_false] at h
    rw [length_acceptedFrom]
    omega
  have hempty : (acceptedFrom source p.wellFormed).isEmpty
      = ((p.wellFormed.filter source.accepts).map (entryText p.timestamp)).isEmpty := by
    rw [← map_snd_acceptedFrom, List.isEmpty_map, List.isEmpty_map]
  rw [route]
  dsimp only
  rw [hdropped, length_acceptedFrom, hempty, lineOf]
  split
  · exact ⟨rfl, rfl⟩
  · rw [← map_snd_acceptedFrom]
    exact ⟨rfl, rfl⟩

/-! ## Runs -/

structure Call where
  sources : SourceSet
  sender : SocketAddress
  datagram : List UInt8

def run (d : Demux) : List Call → List (Option String) × Demux
  | [] => ([], d)
  | c :: cs =>
      let (line, d) := d.handle c.sources c.sender c.datagram
      let (lines, d) := d.run cs
      (line :: lines, d)

variable {limit : PacketLimit} {timestamp : UInt64} {sources : SourceSet} {source : Source}
  {sender : SocketAddress}

/-- A sealed packet of a known source is not rejected, and everything it holds is considered. -/
theorem handle_sealed (d : Demux) (hsource : sources.find? sender.ip.canonical = some source)
    (p : SealedPacket limit timestamp) (hnul : ∀ m ∈ p.held, '\x00' ∉ m.argument.toList)
    (hwhole : ∀ m ∈ p.held, m.carried .current = m) :
    (d.handle sources sender p.datagram).1
        = lineOf source.host ((p.held.filter source.accepts).map (entryText timestamp))
      ∧ (d.handle sources sender p.datagram).2.stats = d.stats.after 1 source p.held := by
  have hwellFormed : p.packet.wellFormed = p.held := by
    rw [p.wellFormed_packet hnul]
    exact (List.map_congr_left hwhole).trans (List.map_id' p.held)
  have hroute := d.route_eq source p.packet
  rw [hwellFormed, p.timestamp_packet] at hroute
  rw [handle, hsource]
  dsimp only
  rw [p.parse_datagram]
  exact hroute

/-- A run over sealed packets: one answer for each, and one count for each measurement. -/
theorem run_sealed (d : Demux) (hsource : sources.find? sender.ip.canonical = some source)
    (ps : List (SealedPacket limit timestamp))
    (hnul : ∀ p ∈ ps, ∀ m ∈ p.held, '\x00' ∉ m.argument.toList)
    (hwhole : ∀ p ∈ ps, ∀ m ∈ p.held, m.carried .current = m) :
    (d.run (ps.map fun p => ⟨sources, sender, p.datagram⟩)).1
        = ps.map (fun p =>
            lineOf source.host ((p.held.filter source.accepts).map (entryText timestamp)))
      ∧ (d.run (ps.map fun p => ⟨sources, sender, p.datagram⟩)).2.stats
        = d.stats.after ps.length source (ps.flatMap SealedPacket.held) := by
  induction ps generalizing d with
  | nil =>
      exact ⟨rfl, rfl⟩
  | cons p ps ih =>
      obtain ⟨hline, hstats⟩ := d.handle_sealed hsource p (hnul p List.mem_cons_self)
        (hwhole p List.mem_cons_self)
      obtain ⟨hlines, hrest⟩ := ih (d.handle sources sender p.datagram).2
        (fun q hq => hnul q (List.mem_cons_of_mem p hq))
        (fun q hq => hwhole q (List.mem_cons_of_mem p hq))
      refine ⟨?_, ?_⟩
      · rw [List.map_cons, List.map_cons, ← hline, ← hlines]
        rfl
      · rw [hstats, DemuxStats.after_after] at hrest
        rw [List.length_cons, Nat.add_comm, List.flatMap_cons, ← hrest]
        rfl

/-- A run over the datagrams of whole measurements without NUL: the entries of the lines are those
of the measurements that fit a packet and that the source may send. -/
theorem run_datagrams (d : Demux) (hsource : sources.find? sender.ip.canonical = some source)
    (limit : PacketLimit) (timestamp : UInt64) {ms : List Measurement}
    (hnul : ∀ m ∈ ms, '\x00' ∉ m.argument.toList) (hwhole : ∀ m ∈ ms, m.carried .current = m) :
    let datagrams := buildPackets limit timestamp ms
    let answer := d.run (datagrams.map fun bytes => ⟨sources, sender, bytes⟩)
    (∃ entries : List (List String), answer.1 = entries.map (lineOf source.host)
        ∧ entries.flatten
          = ((ms.filter limit.admits).filter source.accepts).map (entryText timestamp))
      ∧ answer.2.stats = d.stats.after datagrams.length source (ms.filter limit.admits) := by
  intro datagrams answer
  obtain ⟨ps, hdatagrams, hheld⟩ := exists_sealed_buildPackets limit timestamp ms
  have hmem : ∀ p ∈ ps, ∀ m ∈ p.held, m ∈ ms := by
    intro p hp m hm
    have h : m ∈ ms.filter limit.admits := hheld ▸ List.mem_flatMap.2 ⟨p, hp, hm⟩
    exact (List.mem_filter.1 h).1
  have hcalls : datagrams.map (fun bytes => (⟨sources, sender, bytes⟩ : Call))
      = ps.map fun p => ⟨sources, sender, p.datagram⟩ := by
    rw [show datagrams = ps.map SealedPacket.datagram from hdatagrams, List.map_map]
    rfl
  have hlength : datagrams.length = ps.length := by
    rw [show datagrams = ps.map SealedPacket.datagram from hdatagrams, List.length_map]
  obtain ⟨hlines, hstats⟩ := d.run_sealed hsource ps
    (fun p hp m hm => hnul m (hmem p hp m hm)) (fun p hp m hm => hwhole m (hmem p hp m hm))
  rw [← hcalls] at hlines hstats
  refine ⟨⟨ps.map fun p => (p.held.filter source.accepts).map (entryText timestamp), ?_, ?_⟩, ?_⟩
  · rw [List.map_map]
    exact hlines
  · rw [← hheld, List.filter_flatMap, List.map_flatMap, List.flatMap_def]
  · rw [hlength, ← hheld]
    exact hstats

end Demux

/-! ## Samples -/

def StreamKey.measure (key : StreamKey) (record : Record) : Measurement :=
  ⟨key.argument, record⟩

/-- The argument of a key is never cut. -/
theorem StreamKey.carried_measure (key : StreamKey) (record : Record) :
    (key.measure record).carried .current = key.measure record := by
  have hcut : Utf8.cut ProtocolVersion.current.maxArgument key.argument = key.argument :=
    Utf8.cut_eq_self key.fits
  rw [Measurement.carried]
  simp only [measure, hcut]

/-- The entry of a sample in a line. -/
theorem Demux.entryText_measure {key : StreamKey} {record : Record} (hkind : record.kind = key.kind)
    (timestamp : UInt64) :
    entryText timestamp (key.measure record)
      = s!"{key.kind.name}:{key.argument}:{timestamp}{renderValues .update record.values};" := by
  simp only [entryText, updateText, Measurement.kind, Measurement.render, StreamKey.measure, hkind]
  simp [toString, String.append_assoc]

/-- No sample is lost, repeated, reordered, altered or put under another name between an agent's
packing and a collector's routing. -/
theorem Demux.run_buildPackets (limit : PacketLimit) (timestamp : UInt64)
    (samples : List (StreamKey × Record)) (hkind : ∀ e ∈ samples, e.2.kind = e.1.kind)
    (sources : SourceSet) (source : Source) (sender : SocketAddress)
    (hsource : sources.find? sender.ip.canonical = some source) (d : Demux) :
    let datagrams := buildPackets limit timestamp (samples.map fun e => e.1.measure e.2)
    let fitting := samples.filter fun e =>
      headerSize + (e.1.measure e.2).packedSize .current < limit.bytes
    let accepts := fun e : StreamKey × Record => (source.accepts? e.1.kind e.1.argument).isSome
    let answer := d.run (datagrams.map fun bytes => ⟨sources, sender, bytes⟩)
    (∃ entries : List (List String),
        answer.1 = entries.map (fun es =>
          if es.isEmpty then none else some (source.host ++ ";" ++ String.join es ++ "\n"))
        ∧ entries.flatten = (fitting.filter accepts).map fun e =>
          s!"{e.1.kind.name}:{e.1.argument}:{timestamp}{renderValues .update e.2.values};")
      ∧ answer.2.stats =
        { d.stats with
          packets := d.stats.packets + datagrams.length
          records := d.stats.records + fitting.countP accepts
          droppedRecords := d.stats.droppedRecords + fitting.countP fun e => !accepts e } := by
  intro datagrams fitting accepts answer
  let measure := fun e : StreamKey × Record => e.1.measure e.2
  have hkind' : ∀ e ∈ fitting, e.2.kind = e.1.kind := fun e he => hkind e (List.mem_filter.1 he).1
  have hfitting : (samples.map measure).filter limit.admits = fitting.map measure := by
    rw [List.filter_map]
    rfl
  have haccepts : ∀ e ∈ fitting, source.accepts (measure e) = accepts e := by
    intro e he
    have hk : (measure e).kind = e.1.kind := hkind' e he
    rw [Source.accepts, hk]
    rfl
  have hnul : ∀ m ∈ samples.map measure, '\x00' ∉ m.argument.toList :=
    List.forall_mem_map.2 fun e _ => e.1.noNul
  have hwhole : ∀ m ∈ samples.map measure, m.carried .current = m :=
    List.forall_mem_map.2 fun e _ => e.1.carried_measure e.2
  obtain ⟨⟨entries, hlines, hentries⟩, hstats⟩ :=
    d.run_datagrams hsource limit timestamp hnul hwhole
  rw [hfitting] at hentries hstats
  refine ⟨⟨entries, hlines, ?_⟩, ?_⟩
  · rw [hentries, List.filter_map, List.map_map]
    have hfilter : fitting.filter (source.accepts ∘ measure) = fitting.filter accepts :=
      List.filter_congr haccepts
    rw [hfilter]
    exact List.map_congr_left fun e he =>
      entryText_measure (hkind' e (List.mem_filter.1 he).1) timestamp
  · have hyes : (fitting.map measure).countP source.accepts = fitting.countP accepts := by
      rw [List.countP_map]
      exact List.countP_congr fun e he => by rw [Function.comp_apply, haccepts e he]
    have hno : (fitting.map measure).countP (fun m => !source.accepts m)
        = fitting.countP fun e => !accepts e := by
      rw [List.countP_map]
      exact List.countP_congr fun e he => by rw [Function.comp_apply, haccepts e he]
    rw [DemuxStats.after, hyes, hno] at hstats
    exact hstats

/-- Four samples in two datagrams; the source, known by its mapped address, does not send one. -/
theorem Demux.run_buildPackets_twoDatagrams :
    let cpu : StreamKey := ⟨.cpu, "0", by decide, by simp⟩
    let filter : StreamKey := ⟨.packetFilter, "", by decide, by simp⟩
    let load : StreamKey := ⟨.load, "", by decide, by simp⟩
    let samples : List (StreamKey × Record) :=
      [(cpu, .zeroed .cpu), (filter, .zeroed .packetFilter), (load, .zeroed .load),
        (cpu, .zeroed .cpu)]
    let source : Source := ⟨"alpha", .v4 ⟨10, 0, 0, 2⟩, ⟨[⟨cpu, none⟩]⟩⟩
    let sender : SocketAddress := ⟨.v6 (Ipv4.mapped ⟨10, 0, 0, 2⟩), 0, 40000⟩
    let datagrams :=
      buildPackets ⟨40, by decide, by decide⟩ 7 (samples.map fun e => e.1.measure e.2)
    let answer :=
      (Demux.onFiles .fresh).run (datagrams.map fun bytes => ⟨⟨[source]⟩, sender, bytes⟩)
    (∀ e ∈ samples, e.2.kind = e.1.kind)
      ∧ (⟨[source]⟩ : SourceSet).find? sender.ip.canonical = some source
      ∧ (∃ entries : List (List String),
        answer.1 = entries.map (fun es =>
          if es.isEmpty then none else some ("alpha" ++ ";" ++ String.join es ++ "\n"))
        ∧ entries.flatten = ["cpu:0:7:0.0:0.0:0.0:0.0:0.0;", "cpu:0:7:0.0:0.0:0.0:0.0:0.0;"])
      ∧ answer.2.stats = ⟨2, 0, 0, 2, 1⟩ := by
  intro cpu filter load samples source sender datagrams answer
  have hkind : ∀ e ∈ samples, e.2.kind = e.1.kind := by decide
  have hsource : (⟨[source]⟩ : SourceSet).find? sender.ip.canonical = some source := by decide
  obtain ⟨⟨entries, hlines, hentries⟩, hstats⟩ :=
    Demux.run_buildPackets ⟨40, by decide, by decide⟩ 7 samples hkind ⟨[source]⟩ source sender
      hsource (Demux.onFiles .fresh)
  refine ⟨hkind, hsource, ⟨entries, hlines, ?_⟩, ?_⟩
  -- only the right-hand sides are evaluated, not the run
  · rw [hentries]
    clear_value answer
    decide +kernel
  · rw [hstats]
    clear_value answer
    decide +kernel

end Telemetry
