import Telemetry.Config.Agent
import Telemetry.Config.Collector
import Telemetry.Proofs.Config.Registry

/-!
# Loading — which documents give a configuration, and which one

Each table of a document asks for one destination or one source (`MuxEntry.Describes`,
`SourceEntry.Describes`).  A document gives the configuration that it describes, if that configuration
is valid, and else none (`AgentConfig.parse_eq_ok_iff`, `CollectorConfig.parse_eq_ok_iff`); what has been
added when the first rule is broken plays no part.
-/

namespace Telemetry

variable {r : Resolver}

/-! ## Destinations -/

structure MuxEntry.Describes (r : Resolver) (entry : MuxEntry) (m : Mux) : Prop where
  name : m.name = entry.name.getD entry.address
  address : r.socket entry.address = .ok m.address
  channels : m.channels.entries = entry.streams.map fun k => ⟨k, none⟩

theorem MuxSet.add_eq_ok_iff {ms ms' : MuxSet} {m : Mux} : add ms m = .ok ms' ↔
    (∀ x ∈ ms.entries, x.name ≠ m.name ∧ x.address ≠ m.address) ∧ ms' = ⟨ms.entries ++ [m]⟩ := by
  have hname : findByName? ms m.name = none ↔ ∀ x ∈ ms.entries, x.name ≠ m.name := by
    simp [findByName?]
  rw [add]
  split
  next htaken =>
      have hfound : findByName? ms m.name ≠ none := Option.ne_none_iff_isSome.2 htaken
      rw [Ne, hname] at hfound
      simp only [reduceCtorEq, false_iff]
      exact fun hadd => hfound fun x hx => (hadd.1 x hx).1
  next hfree =>
      have hfree : findByName? ms m.name = none := by simpa using hfree
      rw [Registry.insert_eq_ok_iff]
      constructor
      · rintro ⟨haddress, hentries⟩
        exact ⟨fun x hx => ⟨hname.1 hfree x hx, haddress x hx⟩, hentries⟩
      · rintro ⟨hboth, hentries⟩
        exact ⟨fun x hx => (hboth x hx).2, hentries⟩

/-! ## Agents -/

structure AgentFile.Describes (r : Resolver) (file : AgentFile) (c : AgentConfig) : Prop where
  interval : c.interval = file.interval
  maxPacketSize : c.maxPacketSize = file.maxPacketSize
  muxes : List.Forall₂ (MuxEntry.Describes r) file.muxes c.muxes.entries

namespace AgentConfig

structure Valid (c : AgentConfig) : Prop where
  interval : c.interval ≠ 0
  maxPacketSize : ∀ size, c.maxPacketSize = some size → headerSize + 2 ≤ size ∧ size ≤ maxDatagram
  names : (c.muxes.entries.map Mux.name).Nodup
  addresses : Registry.Distinct c.muxes
  channels : ∀ m ∈ c.muxes.entries, Registry.Distinct m.channels

theorem addMux_eq_ok_iff (r : Resolver) (muxes : MuxSet) (entry : MuxEntry) (muxes' : MuxSet) :
    addMux r muxes entry = .ok muxes' ↔
      ∃ m, (entry.Describes r m ∧ Registry.Distinct m.channels)
        ∧ (∀ x ∈ muxes.entries, x.name ≠ m.name ∧ x.address ≠ m.address)
        ∧ muxes' = ⟨muxes.entries ++ [m]⟩ := by
  constructor
  · intro h
    unfold addMux at h
    split at h
    · contradiction
    next address haddress =>
    dsimp only at h
    split at h
    · contradiction
    next added hadd =>
    split at h
    · contradiction
    next channels hchannels =>
    cases h
    obtain ⟨hfree, rfl⟩ := MuxSet.add_eq_ok_iff.1 hadd
    obtain ⟨hentries, hdistinct⟩ := Registry.insertAll_empty_eq_ok_iff.1 hchannels
    refine ⟨⟨entry.name.getD entry.address, address, channels⟩, ⟨⟨rfl, haddress, hentries⟩, hdistinct⟩,
      hfree, ?_⟩
    -- the destination takes the place of the one that was added without channels
    exact Registry.replaceLast_concat _ _ _
  · rintro ⟨⟨name, address, channels⟩, ⟨⟨hname, haddress, hentries⟩, hdistinct⟩, hfree, rfl⟩
    dsimp only at hname haddress hentries hdistinct
    subst hname
    have hadd : MuxSet.add muxes ⟨entry.name.getD entry.address, address, Registry.empty⟩
        = .ok ⟨muxes.entries ++ [⟨entry.name.getD entry.address, address, Registry.empty⟩]⟩ :=
      MuxSet.add_eq_ok_iff.2 ⟨hfree, rfl⟩
    have hchannels := Registry.insertAll_empty_eq_ok_iff.2 ⟨hentries, hdistinct⟩
    unfold addMux
    simp only [haddress, hadd, hchannels, Registry.replaceLast_concat]

theorem muxes_eq_ok_iff {entries : List MuxEntry} {muxes : MuxSet} :
    entries.foldlM (addMux r) Registry.empty = .ok muxes ↔
      List.Forall₂ (MuxEntry.Describes r) entries muxes.entries
        ∧ (∀ m ∈ muxes.entries, Registry.Distinct m.channels)
        ∧ (muxes.entries.map Mux.name).Nodup ∧ Registry.Distinct muxes := by
  rw [Registry.foldlM_empty_eq_ok_iff (addMux_eq_ok_iff r), Registry.forall₂_and_iff,
    List.pairwise_and_iff, and_assoc, Registry.distinct_iff_pairwise, List.Nodup, List.pairwise_map]
  rfl

theorem packetSize_eq_ok_iff {size : Option Nat} :
    (∃ limit, size.mapM PacketLimit.ofSize = .ok limit)
      ↔ ∀ n, size = some n → headerSize + 2 ≤ n ∧ n ≤ maxDatagram := by
  cases size with
  | none => simp [pure, Except.pure]
  | some n =>
      by_cases h : headerSize + 2 ≤ n ∧ n ≤ maxDatagram
      · simp [PacketLimit.ofSize, h, Functor.map, Except.map]
      · simp [PacketLimit.ofSize, h, Functor.map, Except.map]

theorem ofFile_eq_ok_iff {file : AgentFile} {c : AgentConfig} :
    ofFile r file = .ok c ↔ file.Describes r c ∧ c.Valid := by
  constructor
  · intro h
    rw [ofFile] at h
    split at h
    · contradiction
    next hinterval =>
    split at h
    · contradiction
    next limit hlimit =>
    split at h
    · contradiction
    next muxes hmuxes =>
    cases h
    obtain ⟨hdescribes, hchannels, hnames, haddresses⟩ := muxes_eq_ok_iff.1 hmuxes
    -- the limit is checked here and made again when it is used
    have hsize := packetSize_eq_ok_iff.1 ⟨limit, hlimit⟩
    exact ⟨⟨rfl, rfl, hdescribes⟩, ⟨hinterval, hsize, hnames, haddresses, hchannels⟩⟩
  · rintro ⟨hdescribes, hvalid⟩
    obtain ⟨interval, maxPacketSize, muxes⟩ := c
    obtain ⟨rfl, rfl, hentries⟩ := hdescribes
    have hmuxes := muxes_eq_ok_iff.2 ⟨hentries, hvalid.channels, hvalid.names, hvalid.addresses⟩
    obtain ⟨limit, hlimit⟩ := packetSize_eq_ok_iff.2 hvalid.maxPacketSize
    simp [ofFile, hvalid.interval, hlimit, hmuxes]

/-- A document gives the agent's configuration that it describes, if that one is valid. -/
theorem parse_eq_ok_iff {text : String} {c : AgentConfig} :
    parse r text = .ok c ↔ ∃ es, Toml.parse text = some es
      ∧ (∃ file, AgentFile.ofEntries es = .ok file ∧ file.Describes r c) ∧ c.Valid := by
  rw [parse]
  split
  next hnone => simp [hnone]
  next es hes =>
    rw [hes]
    split
    next e hshape => simp [hshape]
    next file hfile => simp [hfile, ofFile_eq_ok_iff]

end AgentConfig

/-! ## Sources -/

/-- A source is what its table asks for, and the table names files for streams it accepts only. -/
structure SourceEntry.Describes (r : Resolver) (entry : SourceEntry) (s : Source) : Prop where
  host : s.host = entry.host
  address : r.host entry.host = .ok s.address
  channels : s.channels.entries = entry.accept.map fun k => ⟨k, entry.write.find? k⟩
  written : ∀ e ∈ entry.write, e.1 ∈ entry.accept

theorem SourceEntry.Describes.resolved {entry : SourceEntry} {s : Source} (h : entry.Describes r s) :
    r.host s.host = .ok s.address := by
  rw [h.host]
  exact h.address

structure SourceSet.Loaded (r : Resolver) (ss : SourceSet) : Prop where
  distinct : Registry.Distinct ss
  resolved : ∀ s ∈ ss.entries, r.host s.host = .ok s.address

namespace SinkTable

variable {t : SinkTable} {k k' : StreamKey}

theorem find?_erase (h : k' ≠ k) : (t.erase k).find? k' = t.find? k' := by
  rw [find?, find?, erase, List.find?_filter]
  congr 2
  funext e
  by_cases he : e.1 = k'
  · simp [he, h]
  · simp [he]

theorem least?_eq_none_iff : t.least? = none ↔ t = [] := by
  constructor
  · intro h
    rcases List.eq_nil_or_concat t with hnil | ⟨front, last, rfl⟩
    · exact hnil
    -- the last entry is the least, or gives way to one that is
    · rw [least?, List.concat_eq_append, List.foldl_append, List.foldl_cons, List.foldl_nil] at h
      split at h
      · contradiction
      · split at h <;> contradiction
  · rintro rfl
    rfl

theorem filter_erase (ks : List StreamKey) :
    (t.erase k).filter (fun e => e.1 ∉ ks) = t.filter fun e => e.1 ∉ k :: ks := by
  rw [erase, List.filter_filter]
  congr 1
  funext e
  simp [Bool.and_comm]

end SinkTable

/-! ## Collectors -/

structure CollectorFile.Describes (r : Resolver) (file : CollectorFile) (c : CollectorConfig) :
    Prop where
  listen : r.socket file.listen = .ok c.listen
  clients : file.clients.mapM r.socket = .ok c.clients
  broadcastCapacity : c.broadcastCapacity = file.broadcastCapacity
  sources : List.Forall₂ (SourceEntry.Describes r) file.sources c.sources.entries

namespace CollectorConfig

structure Valid (c : CollectorConfig) : Prop where
  broadcastCapacity : c.broadcastCapacity ≠ 0
  addresses : Registry.Distinct c.sources
  channels : ∀ s ∈ c.sources.entries, Registry.Distinct s.channels

variable {channels channels' : ChannelSet} {write left : SinkTable} {k : StreamKey}
  {ks : List StreamKey}

/-- In a set of channels, no stream comes again behind its channel. -/
theorem notMem_of_distinct {cs : List Channel} {c : Channel} {sink : StreamKey → Option String}
    (h : channels.Distinct) (hentries : channels.entries = cs ++ c :: ks.map fun k => ⟨k, sink k⟩) :
    c.key ∉ ks := by
  intro hmem
  rw [Registry.distinct_iff_pairwise, hentries, List.pairwise_append, List.pairwise_cons] at h
  exact h.2.1.1 ⟨c.key, sink c.key⟩ (List.mem_map.2 ⟨c.key, hmem, rfl⟩) rfl

theorem acceptStreams_cons_eq_ok_iff :
    acceptStreams channels write (k :: ks) = .ok (channels', left) ↔
      (∀ c ∈ channels.entries, c.key ≠ k)
        ∧ acceptStreams ⟨channels.entries ++ [⟨k, write.find? k⟩]⟩ (write.erase k) ks
          = .ok (channels', left) := by
  rw [acceptStreams]
  split
  next d hinsert =>
    have hnone : ¬∀ c ∈ channels.entries, c.key ≠ k := by
      intro hfree
      rw [Registry.insert_eq_ok_iff.2 ⟨hfree, rfl⟩] at hinsert
      contradiction
    simp only [reduceCtorEq, false_iff]
    exact fun h => hnone h.1
  next added hinsert =>
    obtain ⟨hfree, rfl⟩ := Registry.insert_eq_ok_iff.1 hinsert
    exact (and_iff_right hfree).symm

/-- A source's streams are taken, each with its file, just when none comes twice; what is left of the
table of files is for other streams. -/
theorem acceptStreams_eq_ok_iff (h : channels.Distinct) :
    acceptStreams channels write ks = .ok (channels', left) ↔
      channels'.entries = channels.entries ++ ks.map (fun k => ⟨k, write.find? k⟩)
        ∧ channels'.Distinct ∧ left = write.filter fun e => e.1 ∉ ks := by
  induction ks generalizing channels write with
  | nil =>
      obtain ⟨entries⟩ := channels'
      constructor
      · intro hok
        cases hok
        simpa using h
      · rintro ⟨hentries, -, rfl⟩
        obtain ⟨before⟩ := channels
        simp only [List.map_nil, List.append_nil] at hentries
        simp [acceptStreams, hentries]
  | cons k ks ih =>
      -- the files of the streams that follow are not affected by taking out this one's
      have hfiles (hk : k ∉ ks) : ks.map (fun k' => Channel.mk k' ((write.erase k).find? k'))
          = ks.map fun k' => ⟨k', write.find? k'⟩ := by
        apply List.map_congr_left
        intro k' hk'
        have hne : k' ≠ k := by
          rintro rfl
          exact hk hk'
        rw [SinkTable.find?_erase hne]
      rw [acceptStreams_cons_eq_ok_iff, List.map_cons, ← SinkTable.filter_erase]
      constructor
      · rintro ⟨hfree, hrest⟩
        obtain ⟨hentries, hdistinct, hleft⟩ := (ih (h.concat hfree)).1 hrest
        rw [List.append_assoc, List.singleton_append] at hentries
        have hk : k ∉ ks := notMem_of_distinct hdistinct hentries
        rw [hfiles hk] at hentries
        exact ⟨hentries, hdistinct, hleft⟩
      · rintro ⟨hentries, hdistinct, hleft⟩
        have hk : k ∉ ks := notMem_of_distinct hdistinct hentries
        have hfree : ∀ c ∈ channels.entries, c.key ≠ k := by
          have hpairwise := Registry.distinct_iff_pairwise.1 hdistinct
          rw [hentries, List.pairwise_append] at hpairwise
          exact fun c hc => hpairwise.2.2 c hc _ List.mem_cons_self
        refine ⟨hfree, (ih (h.concat hfree)).2 ⟨?_, hdistinct, hleft⟩⟩
        rw [hfiles hk, List.append_assoc, List.singleton_append]
        exact hentries

theorem addSource_eq_ok_iff (r : Resolver) (sources : SourceSet) (entry : SourceEntry)
    (sources' : SourceSet) :
    addSource r sources entry = .ok sources' ↔
      ∃ s, (entry.Describes r s ∧ Registry.Distinct s.channels)
        ∧ (∀ x ∈ sources.entries, x.address ≠ s.address)
        ∧ sources' = ⟨sources.entries ++ [s]⟩ := by
  constructor
  · intro h
    unfold addSource at h
    split at h
    · contradiction
    next address haddress =>
    split at h
    · contradiction
    next added hadd =>
    split at h
    · contradiction
    next channels left haccept =>
    split at h
    · contradiction
    next hleast =>
    cases h
    obtain ⟨hfree, rfl⟩ := Registry.insert_eq_ok_iff.1 hadd
    obtain ⟨hentries, hdistinct, hleft⟩ :=
      (acceptStreams_eq_ok_iff Registry.distinct_empty).1 haccept
    -- nothing is left of the table, so each of its streams was accepted
    have hwritten : ∀ e ∈ entry.write, e.1 ∈ entry.accept := by
      rw [SinkTable.least?_eq_none_iff.1 hleast] at hleft
      simpa using hleft.symm
    refine ⟨⟨entry.host, address, channels⟩, ⟨⟨rfl, haddress, hentries, hwritten⟩, hdistinct⟩, hfree,
      ?_⟩
    exact Registry.replaceLast_concat _ _ _
  · rintro ⟨⟨host, address, channels⟩, ⟨⟨hhost, haddress, hentries, hwritten⟩, hdistinct⟩, hfree, rfl⟩
    dsimp only at hhost haddress hentries hdistinct
    subst hhost
    have hadd : Registry.insert sources ⟨entry.host, address, Registry.empty⟩
        = .ok ⟨sources.entries ++ [⟨entry.host, address, Registry.empty⟩]⟩ :=
      Registry.insert_eq_ok_iff.2 ⟨hfree, rfl⟩
    have hleft : [] = entry.write.filter fun e => e.1 ∉ entry.accept := by
      symm
      simpa using hwritten
    have haccept :=
      (acceptStreams_eq_ok_iff Registry.distinct_empty).2 ⟨hentries, hdistinct, hleft⟩
    unfold addSource
    simp only [haddress, hadd, haccept, SinkTable.least?_eq_none_iff.2, Registry.replaceLast_concat]

theorem sources_eq_ok_iff {entries : List SourceEntry} {sources : SourceSet} :
    entries.foldlM (addSource r) Registry.empty = .ok sources ↔
      List.Forall₂ (SourceEntry.Describes r) entries sources.entries
        ∧ (∀ s ∈ sources.entries, Registry.Distinct s.channels) ∧ Registry.Distinct sources := by
  rw [Registry.foldlM_empty_eq_ok_iff (addSource_eq_ok_iff r), Registry.forall₂_and_iff, and_assoc,
    Registry.distinct_iff_pairwise]
  rfl

theorem resolveSocket_eq_ok_iff {text : String} {address : SocketAddress} :
    resolveSocket r text = .ok address ↔ r.socket text = .ok address := by
  unfold resolveSocket
  split
  next s hs => simp [hs]
  next reason hreason => simp [hreason]

theorem clients_eq_ok_iff {text : Option String} {address : Option SocketAddress} :
    text.mapM (resolveSocket r) = .ok address ↔ text.mapM r.socket = .ok address := by
  cases text with
  | none => simp [pure, Except.pure]
  | some text =>
      unfold resolveSocket
      simp only [Option.mapM_some]
      cases r.socket text with
      | error reason => simp [Functor.map, Except.map]
      | ok s => simp [Functor.map, Except.map]

theorem ofFile_eq_ok_iff {file : CollectorFile} {c : CollectorConfig} :
    ofFile r file = .ok c ↔ file.Describes r c ∧ c.Valid := by
  constructor
  · intro h
    rw [ofFile] at h
    split at h
    · contradiction
    next hcapacity =>
    obtain ⟨sources, hsources, h⟩ := ok_of_bind h
    obtain ⟨listen, hlisten, h⟩ := ok_of_bind h
    obtain ⟨clients, hclients, h⟩ := ok_of_bind h
    cases h
    obtain ⟨hdescribes, hchannels, haddresses⟩ := sources_eq_ok_iff.1 hsources
    exact ⟨⟨resolveSocket_eq_ok_iff.1 hlisten, clients_eq_ok_iff.1 hclients, rfl, hdescribes⟩,
      ⟨hcapacity, haddresses, hchannels⟩⟩
  · rintro ⟨hdescribes, hvalid⟩
    obtain ⟨listen, clients, broadcastCapacity, sources⟩ := c
    obtain ⟨hlisten, hclients, rfl, hentries⟩ := hdescribes
    have hsources := sources_eq_ok_iff.2 ⟨hentries, hvalid.channels, hvalid.addresses⟩
    rw [ofFile, if_neg hvalid.broadcastCapacity, hsources, resolveSocket_eq_ok_iff.2 hlisten,
      clients_eq_ok_iff.2 hclients]
    rfl

/-- A document gives the collector's configuration that it describes, if that one is valid. -/
theorem parse_eq_ok_iff {text : String} {c : CollectorConfig} :
    parse r text = .ok c ↔ ∃ es, Toml.parse text = some es
      ∧ (∃ file, CollectorFile.ofEntries es = .ok file ∧ file.Describes r c) ∧ c.Valid := by
  rw [parse]
  split
  next hnone => simp [hnone]
  next es hes =>
    rw [hes]
    split
    next e hshape => simp [hshape]
    next file hfile => simp [hfile, ofFile_eq_ok_iff]

theorem loaded_of_parse {text : String} {config : CollectorConfig} (h : parse r text = .ok config) :
    config.sources.Loaded r := by
  obtain ⟨es, -, ⟨file, -, hdescribes⟩, hvalid⟩ := parse_eq_ok_iff.1 h
  have hresolved := hdescribes.sources.imp fun entry s hs => And.intro hs hs.resolved
  exact ⟨hvalid.addresses, (Registry.forall₂_and_iff.1 hresolved).2⟩

end CollectorConfig
end Telemetry
