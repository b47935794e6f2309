import Telemetry.Proofs.Config.Loading
import Telemetry.Proofs.Config.Sampling

/-!
# Acceptance — which files give a configuration

`Acceptable` states the rules of a file by what stands in it and how its hosts resolve.  A file gives a
configuration just when it is acceptable (`CollectorConfig.ofFile_isOk_iff`,
`AgentConfig.ofFile_isOk_iff`), and then the one it describes.  The rules are not checked in one place:
they are what a run over the tables of the file does not stumble over, with all that it has added by
then.  What an agent samples can be read off its file as well (`AgentConfig.loads_iff_acceptable`).
-/

namespace Telemetry

variable {r : Resolver}

/-- What each entry of a list asks for can be given in one list. -/
theorem exists_forall₂ {α β : Type} {asks : α → β → Prop} {as : List α}
    (h : ∀ a ∈ as, ∃ b, asks a b) : ∃ bs, List.Forall₂ asks as bs := by
  induction as with
  | nil =>
      exact ⟨[], .nil⟩
  | cons a as ih =>
      rw [List.forall_mem_cons] at h
      obtain ⟨b, hb⟩ := h.1
      obtain ⟨bs, hbs⟩ := ih h.2
      exact ⟨b :: bs, .cons hb hbs⟩

theorem exists_of_forall₂ {α β : Type} {asks : α → β → Prop} {as : List α} {bs : List β}
    (h : List.Forall₂ asks as bs) : ∀ a ∈ as, ∃ b, asks a b := by
  induction h with
  | nil => exact nofun
  | cons hb _ ih => exact List.forall_mem_cons.2 ⟨⟨_, hb⟩, ih⟩

/-- Channels are distinct just when the keys that they were made of are. -/
theorem ChannelSet.distinct_iff {channels : ChannelSet} {keys : List StreamKey}
    {sink : StreamKey → Option String} (h : channels.entries = keys.map fun k => ⟨k, sink k⟩) :
    Registry.Distinct channels ↔ keys.Nodup := by
  have hkeys : channels.entries.map Keyed.key = keys := by
    rw [h, List.map_map]
    exact List.map_id _
  rw [Registry.Distinct, hkeys]

/-! ## Sources -/

structure SourceEntry.Acceptable (r : Resolver) (entry : SourceEntry) : Prop where
  host : ∃ address, r.host entry.host = .ok address
  accept : entry.accept.Nodup
  write : ∀ e ∈ entry.write, e.1 ∈ entry.accept

namespace SourceEntry

theorem Describes.distinct_iff {entry : SourceEntry} {s : Source} (h : entry.Describes r s) :
    Registry.Distinct s.channels ↔ entry.accept.Nodup :=
  ChannelSet.distinct_iff h.channels

theorem acceptable_iff {entry : SourceEntry} :
    entry.Acceptable r ↔ ∃ s, entry.Describes r s ∧ Registry.Distinct s.channels := by
  constructor
  · rintro ⟨⟨address, haddress⟩, haccept, hwrite⟩
    let channels : ChannelSet := ⟨entry.accept.map fun k => ⟨k, entry.write.find? k⟩⟩
    have hdescribes : entry.Describes r ⟨entry.host, address, channels⟩ :=
      ⟨rfl, haddress, rfl, hwrite⟩
    exact ⟨_, hdescribes, hdescribes.distinct_iff.2 haccept⟩
  · rintro ⟨s, hdescribes, hdistinct⟩
    exact ⟨⟨s.address, hdescribes.address⟩, hdescribes.distinct_iff.1 hdistinct, hdescribes.written⟩

/-- Sources have distinct addresses just when no two of their hosts resolve to the same. -/
theorem distinct_iff_of_describes {entries : List SourceEntry} {sources : SourceSet}
    (h : List.Forall₂ (Describes r) entries sources.entries) :
    Registry.Distinct sources ↔ entries.Pairwise fun x y => r.host x.host ≠ r.host y.host :=
  Registry.distinct_iff_of_forall₂ (h.imp fun _ _ hs => hs.address)

end SourceEntry

/-! ## Collectors -/

namespace CollectorFile

structure Acceptable (r : Resolver) (file : CollectorFile) : Prop where
  broadcastCapacity : 0 < file.broadcastCapacity
  listen : ∃ address, r.socket file.listen = .ok address
  clients : ∀ text, file.clients = some text → ∃ address, r.socket text = .ok address
  sources : ∀ entry ∈ file.sources, entry.Acceptable r
  addresses : file.sources.Pairwise fun x y => r.host x.host ≠ r.host y.host

/-- The file that a text is, if it is a document of that shape. -/
def read? (text : String) : Option CollectorFile :=
  (Toml.parse text).bind fun es => (ofEntries es).toOption

end CollectorFile

namespace CollectorConfig

theorem parse_of_read? {text : String} {file : CollectorFile}
    (h : CollectorFile.read? text = some file) : parse r text = ofFile r file := by
  obtain ⟨es, hes, hfile⟩ := Option.bind_eq_some_iff.1 h
  rw [parse, hes]
  dsimp only
  rw [ok_of_toOption hfile]

theorem exists_clients_iff {text : Option String} :
    (∃ address, text.mapM r.socket = .ok address)
      ↔ ∀ t, text = some t → ∃ address, r.socket t = .ok address := by
  cases text with
  | none => simp [pure, Except.pure]
  | some t =>
      cases hsocket : r.socket t with
      | error reason => simp [hsocket, Functor.map, Except.map]
      | ok address => simp [hsocket, Functor.map, Except.map]

theorem ofFile_isOk_iff {file : CollectorFile} :
    (∃ config, ofFile r file = .ok config) ↔ file.Acceptable r := by
  constructor
  · rintro ⟨config, hconfig⟩
    obtain ⟨hdescribes, hvalid⟩ := ofFile_eq_ok_iff.1 hconfig
    have hsources := Registry.forall₂_and_iff.2 ⟨hdescribes.sources, hvalid.channels⟩
    exact
      { broadcastCapacity := by
          rw [← hdescribes.broadcastCapacity]
          exact Nat.pos_of_ne_zero hvalid.broadcastCapacity
        listen := ⟨_, hdescribes.listen⟩
        clients := exists_clients_iff.1 ⟨_, hdescribes.clients⟩
        sources := fun entry hentry =>
          SourceEntry.acceptable_iff.2 (exists_of_forall₂ hsources entry hentry)
        addresses := (SourceEntry.distinct_iff_of_describes hdescribes.sources).1 hvalid.addresses }
  · rintro ⟨hcapacity, ⟨listen, hlisten⟩, hclients, hsources, haddresses⟩
    obtain ⟨clients, hclients⟩ := exists_clients_iff.2 hclients
    obtain ⟨sources, hboth⟩ :=
      exists_forall₂ fun entry hentry => SourceEntry.acceptable_iff.1 (hsources entry hentry)
    obtain ⟨hdescribes, hchannels⟩ := Registry.forall₂_and_iff.1 hboth
    let config : CollectorConfig := ⟨listen, clients, file.broadcastCapacity, ⟨sources⟩⟩
    have hdistinct : Registry.Distinct config.sources :=
      (SourceEntry.distinct_iff_of_describes hdescribes).2 haddresses
    refine ⟨config, ofFile_eq_ok_iff.2 ⟨⟨hlisten, hclients, rfl, hdescribes⟩, ?_⟩⟩
    exact ⟨Nat.ne_of_gt hcapacity, hdistinct, hchannels⟩

/-- The text of a file gives a configuration just when the file is acceptable.  The configuration has
the sources of the file in its order, each with the streams that it accepts in their order and the
series files that its table names for them. -/
theorem parse_of_acceptable {text : String} {file : CollectorFile}
    (h : CollectorFile.read? text = some file) :
    ((∃ config, parse r text = .ok config) ↔ file.Acceptable r)
      ∧ ∀ config, parse r text = .ok config →
        r.socket file.listen = .ok config.listen ∧ file.clients.mapM r.socket = .ok config.clients
          ∧ config.broadcastCapacity = file.broadcastCapacity
          ∧ List.Forall₂
              (fun entry s => s.host = entry.host ∧ r.host entry.host = .ok s.address
                ∧ s.channels.entries = entry.accept.map fun k => ⟨k, entry.write.find? k⟩)
              file.sources config.sources.entries := by
  rw [parse_of_read? h]
  refine ⟨ofFile_isOk_iff, ?_⟩
  intro config hconfig
  obtain ⟨⟨hlisten, hclients, hcapacity, hsources⟩, -⟩ := ofFile_eq_ok_iff.1 hconfig
  exact ⟨hlisten, hclients, hcapacity,
    hsources.imp fun entry s hs => ⟨hs.host, hs.address, hs.channels⟩⟩

/-- Two sources with three streams, one of which is written to a file. -/
theorem parse_of_acceptable_twoSources :
    let text := "listen = \"127.0.0.1:0\"\n"
      ++ "[[source]]\nhost = \"10.0.0.2\"\naccept = [\"mem\", \"cpu(0)\"]\n"
      ++ "[source.write]\n\"cpu( 0 )\" = \"cpu.rrd\"\n"
      ++ "[[source]]\nhost = \"::ffff:10.0.0.2\"\naccept = [\"cpu(0)\"]\n"
    let cpu : StreamKey := ⟨.cpu, "0", by decide, by simp⟩
    let mem : StreamKey := ⟨.memory, "", by decide, by simp⟩
    let file : CollectorFile := ⟨"127.0.0.1:0", none, 65536,
      [⟨"10.0.0.2", [mem, cpu], [(cpu, "cpu.rrd")]⟩, ⟨"::ffff:10.0.0.2", [cpu], []⟩]⟩
    CollectorFile.read? text = some file
      ∧ ∃ config, parse .literal text = .ok config
        ∧ config.sources.entries.map (fun s => s.channels.entries)
          = [[⟨mem, none⟩, ⟨cpu, some "cpu.rrd"⟩], [⟨cpu, none⟩]] := by
  intro text cpu mem file
  have h : CollectorFile.read? text = some file := by decide +kernel
  have hplain : Resolver.host .literal "10.0.0.2" = .ok (.v4 ⟨10, 0, 0, 2⟩) :=
    ok_of_toOption (by decide +kernel)
  have hmapped : Resolver.host .literal "::ffff:10.0.0.2" = .ok (.v6 (Ipv4.mapped ⟨10, 0, 0, 2⟩)) :=
    ok_of_toOption (by decide +kernel)
  have hacceptable : file.Acceptable .literal :=
    { broadcastCapacity := by decide
      listen := ⟨⟨.v4 ⟨127, 0, 0, 1⟩, 0, 0⟩, ok_of_toOption (by decide +kernel)⟩
      clients := nofun
      sources := List.forall_mem_cons.2 ⟨⟨⟨_, hplain⟩, by decide, by decide⟩,
        List.forall_mem_singleton.2 ⟨⟨_, hmapped⟩, by decide, nofun⟩⟩
      addresses := List.pairwise_pair.2 (by simp [hplain, hmapped]) }
  have haccepts := parse_of_acceptable (r := .literal) h
  obtain ⟨config, hconfig⟩ := haccepts.1.2 hacceptable
  obtain ⟨-, -, -, hsources⟩ := haccepts.2 config hconfig
  refine ⟨h, config, hconfig, ?_⟩
  generalize config.sources.entries = sources at hsources ⊢
  obtain _ | ⟨hfirst, _ | ⟨hsecond, _ | _⟩⟩ := hsources
  rw [List.map_cons, List.map_cons, hfirst.2.2, hsecond.2.2]
  rfl

end CollectorConfig

/-! ## Destinations -/

namespace MuxEntry

def title (entry : MuxEntry) : String :=
  entry.name.getD entry.address

structure Acceptable (r : Resolver) (entry : MuxEntry) : Prop where
  address : ∃ address, r.socket entry.address = .ok address
  streams : entry.streams.Nodup

theorem Describes.keys {entry : MuxEntry} {m : Mux} (h : entry.Describes r m) :
    m.channels.entries.map Channel.key = entry.streams := by
  rw [h.channels, List.map_map]
  exact List.map_id _

theorem acceptable_iff {entry : MuxEntry} :
    entry.Acceptable r ↔ ∃ m, entry.Describes r m ∧ Registry.Distinct m.channels := by
  constructor
  · rintro ⟨⟨address, haddress⟩, hstreams⟩
    let channels : ChannelSet := ⟨entry.streams.map fun k => ⟨k, none⟩⟩
    exact ⟨⟨entry.title, address, channels⟩, ⟨rfl, haddress, rfl⟩,
      (ChannelSet.distinct_iff rfl).2 hstreams⟩
  · rintro ⟨m, hdescribes, hdistinct⟩
    exact ⟨⟨m.address, hdescribes.address⟩, (ChannelSet.distinct_iff hdescribes.channels).1 hdistinct⟩

variable {entries : List MuxEntry} {muxes : MuxSet}

theorem names_of_describes (h : List.Forall₂ (Describes r) entries muxes.entries) :
    entries.map title = muxes.entries.map Mux.name := by
  rw [← List.forall₂_eq_eq_eq, List.forall₂_map_left_iff, List.forall₂_map_right_iff]
  exact h.imp fun _ _ hm => hm.name.symm

theorem distinct_iff_of_describes (h : List.Forall₂ (Describes r) entries muxes.entries) :
    Registry.Distinct muxes ↔
      entries.Pairwise fun x y => r.socket x.address ≠ r.socket y.address :=
  Registry.distinct_iff_of_forall₂ (h.imp fun _ _ hm => hm.address)

theorem shippedKeys_of_describes {c : AgentConfig}
    (h : List.Forall₂ (Describes r) entries c.muxes.entries) :
    entries.flatMap streams = c.shippedKeys := by
  rw [AgentConfig.shippedKeys, List.flatMap_def, List.flatMap_def]
  congr 1
  rw [← List.forall₂_eq_eq_eq, List.forall₂_map_left_iff, List.forall₂_map_right_iff]
  exact h.imp fun _ _ hm => hm.keys.symm

end MuxEntry

/-! ## Agents -/

namespace AgentFile

structure Acceptable (r : Resolver) (file : AgentFile) : Prop where
  interval : 1 ≤ file.interval
  maxPacketSize : ∀ size, file.maxPacketSize = some size → 18 ≤ size ∧ size ≤ 65507
  muxes : ∀ entry ∈ file.muxes, entry.Acceptable r
  names : (file.muxes.map MuxEntry.title).Nodup
  addresses : file.muxes.Pairwise fun x y => r.socket x.address ≠ r.socket y.address

def read? (text : String) : Option AgentFile :=
  (Toml.parse text).bind fun es => (ofEntries es).toOption

end AgentFile

namespace AgentConfig

theorem parse_of_read? {text : String} {file : AgentFile} (h : AgentFile.read? text = some file) :
    parse r text = ofFile r file := by
  obtain ⟨es, hes, hfile⟩ := Option.bind_eq_some_iff.1 h
  rw [parse, hes]
  dsimp only
  rw [ok_of_toOption hfile]

theorem ofFile_isOk_iff {file : AgentFile} :
    (∃ config, ofFile r file = .ok config) ↔ file.Acceptable r := by
  constructor
  · rintro ⟨config, hconfig⟩
    obtain ⟨hdescribes, hvalid⟩ := ofFile_eq_ok_iff.1 hconfig
    have hmuxes := Registry.forall₂_and_iff.2 ⟨hdescribes.muxes, hvalid.channels⟩
    exact
      { interval := by
          rw [← hdescribes.interval]
          exact Nat.one_le_iff_ne_zero.2 hvalid.interval
        maxPacketSize := by
          rw [← hdescribes.maxPacketSize]
          exact hvalid.maxPacketSize
        muxes := fun entry hentry =>
          MuxEntry.acceptable_iff.2 (exists_of_forall₂ hmuxes entry hentry)
        names := (MuxEntry.names_of_describes hdescribes.muxes).symm ▸ hvalid.names
        addresses := (MuxEntry.distinct_iff_of_describes hdescribes.muxes).1 hvalid.addresses }
  · rintro ⟨hinterval, hsize, hmuxes, hnames, haddresses⟩
    obtain ⟨muxes, hboth⟩ :=
      exists_forall₂ fun entry hentry => MuxEntry.acceptable_iff.1 (hmuxes entry hentry)
    obtain ⟨hdescribes, hchannels⟩ := Registry.forall₂_and_iff.1 hboth
    let config : AgentConfig := ⟨file.interval, file.maxPacketSize, ⟨muxes⟩⟩
    have hdistinct : Registry.Distinct config.muxes :=
      (MuxEntry.distinct_iff_of_describes hdescribes).2 haddresses
    have htitles : (config.muxes.entries.map Mux.name).Nodup :=
      MuxEntry.names_of_describes hdescribes ▸ hnames
    refine ⟨config, ofFile_eq_ok_iff.2 ⟨⟨rfl, rfl, hdescribes⟩, ?_⟩⟩
    exact ⟨Nat.one_le_iff_ne_zero.1 hinterval, hsize, htitles, hdistinct, hchannels⟩

/-- The text of a file gives a configuration just when the file is acceptable.  The configuration has
the destinations of the file in its order, each with its streams in their order, and samples every key
that some destination lists, once, in the order in which the file first mentions them. -/
theorem loads_iff_acceptable {text : String} {file : AgentFile}
    (h : AgentFile.read? text = some file) :
    ((∃ config, parse r text = .ok config) ↔ file.Acceptable r)
      ∧ ∀ config, parse r text = .ok config →
        config.interval = file.interval ∧ config.maxPacketSize = file.maxPacketSize
          ∧ List.Forall₂
              (fun entry m => m.name = entry.title ∧ r.socket entry.address = .ok m.address
                ∧ m.channels.entries.map Channel.key = entry.streams)
              file.muxes config.muxes.entries
          ∧ config.sampledStreams.Nodup
          ∧ (∀ k, k ∈ config.sampledStreams ↔ ∃ entry ∈ file.muxes, k ∈ entry.streams)
          ∧ config.sampledStreams.Pairwise fun k k' =>
              (file.muxes.flatMap MuxEntry.streams).idxOf k
                < (file.muxes.flatMap MuxEntry.streams).idxOf k' := by
  rw [parse_of_read? h]
  refine ⟨ofFile_isOk_iff, ?_⟩
  intro config hconfig
  obtain ⟨⟨hinterval, hsize, hmuxes⟩, -⟩ := ofFile_eq_ok_iff.1 hconfig
  have hfirst := config.firstMentions_sampledStreams
  rw [← MuxEntry.shippedKeys_of_describes hmuxes] at hfirst
  refine ⟨hinterval, hsize, hmuxes.imp fun _ _ hm => ⟨hm.name, hm.address, hm.keys⟩, hfirst.nodup, ?_,
    hfirst.ordered⟩
  intro k
  rw [hfirst.mem_iff, List.mem_flatMap]

/-- Two destinations, of which one has no name, list a stream in common. -/
theorem loads_iff_acceptable_sharedStream :
    let text := "interval_secs = 10\nmax_packet_size = 18\n"
      ++ "[[mux]]\naddress = \"10.0.0.2:2100\"\nstreams = [\"mem\", \"cpu(0)\"]\n"
      ++ "[[mux]]\nname = \"b\"\naddress = \"[::1]:2100\"\nstreams = [\"load\", \"cpu( 0 )\"]\n"
    let cpu : StreamKey := ⟨.cpu, "0", by decide, by simp⟩
    let mem : StreamKey := ⟨.memory, "", by decide, by simp⟩
    let load : StreamKey := ⟨.load, "", by decide, by simp⟩
    let file : AgentFile := ⟨10, some 18,
      [⟨none, "10.0.0.2:2100", [mem, cpu]⟩, ⟨some "b", "[::1]:2100", [load, cpu]⟩]⟩
    AgentFile.read? text = some file
      ∧ ∃ config, parse .literal text = .ok config
        ∧ config.muxes.entries.map Mux.name = ["10.0.0.2:2100", "b"]
        ∧ config.sampledStreams = [mem, cpu, load] ∧ config.sampledStreams.Nodup := by
  intro text cpu mem load file
  have h : AgentFile.read? text = some file := by decide +kernel
  have hfirst : Resolver.socket .literal "10.0.0.2:2100" = .ok ⟨.v4 ⟨10, 0, 0, 2⟩, 0, 2100⟩ :=
    ok_of_toOption (by decide +kernel)
  have hsecond : Resolver.socket .literal "[::1]:2100"
      = .ok ⟨.v6 ⟨[0, 0, 0, 0, 0, 0, 0, 1], rfl⟩, 0, 2100⟩ :=
    ok_of_toOption (by decide +kernel)
  have hacceptable : file.Acceptable .literal :=
    { interval := by decide
      maxPacketSize := by decide
      muxes := List.forall_mem_cons.2 ⟨⟨⟨_, hfirst⟩, by decide⟩,
        List.forall_mem_singleton.2 ⟨⟨_, hsecond⟩, by decide⟩⟩
      names := by decide
      addresses := List.pairwise_pair.2 (by simp [hfirst, hsecond]) }
  have hloads := loads_iff_acceptable (r := .literal) h
  obtain ⟨config, hconfig⟩ := hloads.1.2 hacceptable
  obtain ⟨-, -, hmuxes, hnodup, -⟩ := hloads.2 config hconfig
  refine ⟨h, config, hconfig, ?_, ?_, hnodup⟩
  · generalize config.muxes.entries = muxes at hmuxes ⊢
    obtain _ | ⟨hname, _ | ⟨hname', _ | _⟩⟩ := hmuxes
    rw [List.map_cons, List.map_cons, hname.1, hname'.1]
    rfl
  · have hsampled : (parse .literal text).toOption.map sampledStreams = some [mem, cpu, load] := by
      decide +kernel
    rw [hconfig] at hsampled
    exact Option.some.inj hsampled

end AgentConfig
end Telemetry
