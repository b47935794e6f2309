import Telemetry.Proofs.Address.Written
import Telemetry.Proofs.Collector.Demultiplexing
import Telemetry.Proofs.Config.Loading
import Telemetry.Proofs.Text.Decimal
import Telemetry.Proofs.Text.Separated

/-!
# Lines — what can be read back from a line

An entry tells its timestamp and its measurement, whatever the argument is (`Demux.entry_injective`):
its kind ends at the first colon, and the kind says how many colons stand behind the argument.  A line
is written raw, so it tells its host and its entries only where none of them holds a semicolon, and
is one line only where none holds a newline (`Demux.handle_readable`).  Accepted arguments may hold
both: then a line breaks in two, or passes for the line of other measurements
(`Demux.handle_forgedLine`).
-/

namespace Telemetry

/-- A text that ends no entry and no line. -/
def Text.Plain (s : String) : Prop :=
  ';' ∉ s.toList ∧ '\n' ∉ s.toList

instance (s : String) : Decidable (Text.Plain s) :=
  inferInstanceAs (Decidable (_ ∧ _))

def Resolver.KnowsPlain (r : Resolver) : Prop :=
  ∀ host ips, r host = .ok ips → Text.Plain host

def SourceSet.AcceptsPlain (ss : SourceSet) : Prop :=
  ∀ s ∈ ss.entries, ∀ c ∈ s.channels.entries, Text.Plain c.key.argument

/-! ## Entries -/

namespace Demux

/-- The characters of an entry in front of its semicolon, from its timestamp on. -/
def entryEnd (timestamp : UInt64) (m : Measurement) : List Char :=
  Nat.toDigits 10 timestamp.toNat
    ++ (m.record.values.map fun v => v.text.toList).flatMap (':' :: ·)

def entry (timestamp : UInt64) (m : Measurement) : List Char :=
  m.kind.name.toList ++ ':' :: (m.argument.toList ++ ':' :: entryEnd timestamp m)

theorem toList_render (m : Measurement) : (m.render .update).toList
    = (m.record.values.map fun v => v.text.toList).flatMap (':' :: ·) :=
  toList_renderValues_update m.record.values

theorem toList_entryText (timestamp : UInt64) (m : Measurement) :
    (entryText timestamp m).toList = entry timestamp m ++ [';'] := by
  have hself (s : String) : toString s = s := rfl
  have htime : (toString timestamp).toList = Nat.toDigits 10 timestamp.toNat := by
    change (toString timestamp.toNat).toList = _
    rw [Nat.toString_eq_ofList_toDigits, String.toList_ofList]
  simp only [entryText, updateText, hself, String.toList_append, toList_render, htime, entry,
    entryEnd]
  simp

variable {timestamp timestamp' : UInt64} {m m' : Measurement} {c : Char}

theorem notMem_toDigits (hdigit : ¬c.isDigit = true) (n : Nat) : c ∉ Nat.toDigits 10 n :=
  fun h => hdigit (Nat.isDigit_of_mem_toDigits (by decide) (by decide) h)

/-- Neither the timestamp nor a value holds a semicolon or a newline. -/
theorem notMem_entryEnd (hdigit : ¬c.isDigit = true) (hc : c ≠ '.' ∧ c ≠ '-' ∧ c ≠ ':') :
    c ∉ entryEnd timestamp m := by
  intro h
  rcases List.mem_append.1 h with htime | hvalue
  · exact notMem_toDigits hdigit _ htime
  · obtain ⟨x, hx, hmem⟩ := List.mem_flatMap.1 hvalue
    rcases List.mem_cons.1 hmem with hcolon | hmem
    · exact hc.2.2 hcolon
    · exact Value.notMem_texts hdigit ⟨hc.1, hc.2.1⟩ _ x hx hmem

/-- An entry is plain if its argument is. -/
theorem notMem_entry (hdigit : ¬c.isDigit = true) (hc : c ≠ '.' ∧ c ≠ '-' ∧ c ≠ ':')
    (hname : c ∉ m.kind.name.toList) (h : c ∉ m.argument.toList) : c ∉ entry timestamp m := by
  simp only [entry, List.mem_append, List.mem_cons]
  rintro (hmem | hcolon | hmem | hcolon | hmem)
  · exact hname hmem
  · exact hc.2.2 hcolon
  · exact h hmem
  · exact hc.2.2 hcolon
  · exact notMem_entryEnd hdigit hc hmem

theorem notMem_name (k : StreamKind) :
    ':' ∉ k.name.toList ∧ ';' ∉ k.name.toList ∧ '\n' ∉ k.name.toList := by
  cases k <;> decide

theorem name_injective {k k' : StreamKind} (h : k.name = k'.name) : k = k' := by
  have hname (k : StreamKind) : StreamKind.ofName? k.name = some k := by cases k <;> rfl
  have hsome := hname k
  rw [h, hname k'] at hsome
  exact (Option.some.inj hsome).symm

/-- An entry tells its timestamp and its measurement, whatever the argument is. -/
theorem entry_injective (h : entry timestamp m = entry timestamp' m') :
    timestamp = timestamp' ∧ m = m' := by
  have hvalues (m : Measurement) : ∀ x ∈ m.record.values.map fun v => v.text.toList, ':' ∉ x :=
    Value.notMem_texts (by decide) (by decide) m.record.values
  have hdigits (n : Nat) : ':' ∉ Nat.toDigits 10 n := notMem_toDigits (by decide) n
  obtain ⟨hname, hrest⟩ :=
    Text.append_cons_inj_of_notMem (notMem_name m.kind).1 (notMem_name m'.kind).1 h
  have hkind : m.record.kind = m'.record.kind := name_injective (String.toList_injective hname)
  -- the kind says how many values there are, and so how many colons stand behind the argument
  have hlength : m.record.values.length = m'.record.values.length := by
    have hshape := m.record.shaped
    rw [hkind, ← m'.record.shaped] at hshape
    simpa using congrArg List.length hshape
  have hcount : (entryEnd timestamp m).count ':' = (entryEnd timestamp' m').count ':' := by
    rw [entryEnd, entryEnd, Text.count_append_flatMap (hdigits _) (hvalues m),
      Text.count_append_flatMap (hdigits _) (hvalues m'), List.length_map, List.length_map, hlength]
  obtain ⟨hargument, hend⟩ := Text.append_cons_inj_of_count hcount hrest
  have hsplit := congrArg (List.splitOn ':') hend
  rw [entryEnd, entryEnd, Text.splitOn_append_flatMap (hdigits _) (hvalues m),
    Text.splitOn_append_flatMap (hdigits _) (hvalues m'), List.cons.injEq] at hsplit
  have htime : timestamp.toNat = timestamp'.toNat := by
    rw [← Nat.ofDigitChars_ten_toDigits (n := timestamp.toNat), hsplit.1,
      Nat.ofDigitChars_ten_toDigits]
  obtain ⟨argument, record⟩ := m
  obtain ⟨argument', record'⟩ := m'
  cases String.toList_injective hargument
  cases Record.eq_of_texts hkind hsplit.2
  exact ⟨UInt64.toNat_inj.1 htime, rfl⟩

/-! ## Lines -/

variable {host host' : String} {ms ms' : List Measurement}

/-- A line is its host, its entries and its newline, with a semicolon between any two. -/
theorem toList_lineText (host : String) (timestamp : UInt64) (ms : List Measurement) :
    (lineText host timestamp ms).toList
      = host.toList ++ (ms.map (entry timestamp) ++ [['\n']]).flatMap (';' :: ·) := by
  have hentries : (String.join (ms.map (entryText timestamp))).toList
      = (ms.map (entry timestamp)).flatMap (· ++ [';']) := by
    simp [toList_entryText, List.flatMap_map]
  have hline : (lineText host timestamp ms).toList
      = host.toList ++ ';' :: ((ms.map (entry timestamp)).flatMap (· ++ [';']) ++ ['\n']) := by
    simp [lineText, hentries]
  rw [hline, Text.cons_flatMap_concat, List.flatMap_append, List.flatMap_singleton]

theorem notMem_entry_of_plain (h : Text.Plain m.argument) :
    ';' ∉ entry timestamp m ∧ '\n' ∉ entry timestamp m :=
  ⟨notMem_entry (by decide) (by decide) (notMem_name m.kind).2.1 h.1,
    notMem_entry (by decide) (by decide) (notMem_name m.kind).2.2 h.2⟩

/-- A line of plain texts ends in its only newline. -/
theorem lineText_eq_append_newline (hhost : Text.Plain host)
    (hms : ∀ m ∈ ms, Text.Plain m.argument) :
    ∃ front : String, '\n' ∉ front.toList ∧ lineText host timestamp ms = front ++ "\n" := by
  refine ⟨host ++ ";" ++ String.join (ms.map (entryText timestamp)), ?_, rfl⟩
  have hentries : ∀ m ∈ ms, '\n' ∉ (entryText timestamp m).toList := by
    intro m hm
    rw [toList_entryText]
    simpa using (notMem_entry_of_plain (hms m hm)).2
  simpa using ⟨hhost.2, hentries⟩

/-- A line of plain texts tells its host and its measurements, and its timestamp by any of them. -/
theorem lineText_injective (hhost : Text.Plain host) (hhost' : Text.Plain host')
    (hms : ∀ m ∈ ms, Text.Plain m.argument) (hms' : ∀ m ∈ ms', Text.Plain m.argument)
    (h : lineText host timestamp ms = lineText host' timestamp' ms') :
    host = host' ∧ (ms ≠ [] → timestamp = timestamp') ∧ ms = ms' := by
  have hparts {t : UInt64} {ms : List Measurement} (hms : ∀ m ∈ ms, Text.Plain m.argument) :
      ∀ x ∈ ms.map (entry t) ++ [['\n']], ';' ∉ x := by
    intro x hx
    rcases List.mem_append.1 hx with hentry | hnewline
    · obtain ⟨m, hm, rfl⟩ := List.mem_map.1 hentry
      exact (notMem_entry_of_plain (hms m hm)).1
    · rw [List.mem_singleton.1 hnewline]
      decide
  have hsplit := congrArg (List.splitOn ';') (congrArg String.toList h)
  rw [toList_lineText, toList_lineText, Text.splitOn_append_flatMap hhost.1 (hparts hms),
    Text.splitOn_append_flatMap hhost'.1 (hparts hms'), List.cons.injEq,
    List.append_cancel_right_eq] at hsplit
  obtain ⟨hsame, hentries⟩ := hsplit
  refine ⟨String.toList_injective hsame, ?_⟩
  clear h hms hms' hparts
  -- entry by entry
  induction ms generalizing ms' with
  | nil => simpa using hentries.symm
  | cons m ms ih =>
      cases ms' with
      | nil => simp at hentries
      | cons m' ms' =>
          rw [List.map_cons, List.map_cons, List.cons.injEq] at hentries
          obtain ⟨htime, hm⟩ := entry_injective hentries.1
          exact ⟨fun _ => htime, by rw [hm, (ih hentries.2).2]⟩

end Demux

/-! ## Sources that write plain lines -/

theorem Text.plain_of_parse? {host : String} {ip : IpAddress}
    (h : IpAddress.parse? host = some ip) : Text.Plain host := by
  have hchars := IpAddress.isAddressChar_of_parse? h
  exact ⟨fun hc => absurd (hchars _ hc) (by decide), fun hc => absurd (hchars _ hc) (by decide)⟩

theorem Resolver.literal_knowsPlain : Resolver.literal.KnowsPlain := by
  intro host ips h
  rw [literal] at h
  split at h
  · next ip hip => exact Text.plain_of_parse? hip
  · contradiction

/-- A host that is found is a literal address, or a name that the resolver knows. -/
theorem Resolver.KnowsPlain.plain_of_host {r : Resolver} (hr : r.KnowsPlain) {host : String}
    {ip : IpAddress} (h : r.host host = .ok ip) : Text.Plain host := by
  rw [Resolver.host] at h
  split at h
  · next ip hip => exact Text.plain_of_parse? hip
  · rw [lookUp] at h
    split at h
    · contradiction
    split at h
    · contradiction
    · contradiction
    · next ip ips hips => exact hr host _ hips

namespace Delivery

def accepted (v : Delivery) : List Measurement :=
  v.packet.wellFormed.filter v.source.accepts

theorem plain_of_mem_accepted {sources : SourceSet} (h : sources.AcceptsPlain) {v : Delivery}
    (hsource : v.source ∈ sources.entries) : ∀ m ∈ v.accepted, Text.Plain m.argument := by
  intro m hm
  have haccepts := (List.mem_filter.1 hm).2
  obtain ⟨c, hc⟩ := Option.isSome_iff_exists.1 haccepts
  rw [Source.accepts?] at hc
  have hargument : c.key.argument = m.argument := by
    have hnamed := List.find?_some hc
    simp only [StreamKey.isNamed, Bool.and_eq_true, beq_iff_eq] at hnamed
    exact hnamed.2
  rw [← hargument]
  exact h v.source hsource c (List.mem_of_find?_eq_some hc)

theorem line_eq_lineText (v : Delivery) : v.line = if v.accepted.isEmpty then none
    else some (Demux.lineText v.source.host v.packet.timestamp v.accepted) := by
  rw [Demux.line_eq_lineOf, Demux.lineOf, List.isEmpty_map]
  rfl

end Delivery

namespace Demux

variable {sources : SourceSet} {sender : SocketAddress} {datagram : List UInt8} {line : String}

theorem handle_eq_line (d : Demux) (c : Call) :
    (d.handle c.sources c.sender c.datagram).1 = c.delivery?.bind Delivery.line := by
  have hrun : (d.run [c]).1 = _ := congrArg Prod.fst (d.run_eq [c])
  exact List.head_eq_of_cons_eq hrun

theorem handle_of_delivery (d : Demux) {v : Delivery}
    (hv : Call.delivery? ⟨sources, sender, datagram⟩ = some v) {ms : List Measurement}
    (hms : v.accepted = ms) (hne : ms ≠ []) :
    (d.handle sources sender datagram).1 = some (lineText v.source.host v.packet.timestamp ms) := by
  have hline := d.handle_eq_line ⟨sources, sender, datagram⟩
  rw [hv, Option.bind_some, v.line_eq_lineText, hms] at hline
  simpa [hne] using hline

/-- A line is that of a delivery with measurements that the source may send. -/
theorem exists_delivery_of_handle {d : Demux}
    (h : (d.handle sources sender datagram).1 = some line) :
    ∃ v, Call.delivery? ⟨sources, sender, datagram⟩ = some v ∧ v.source ∈ sources.entries
      ∧ v.accepted ≠ [] ∧ line = lineText v.source.host v.packet.timestamp v.accepted := by
  have hline := (d.handle_eq_line ⟨sources, sender, datagram⟩).symm.trans h
  obtain ⟨v, hv, hline⟩ := Option.bind_eq_some_iff.1 hline
  obtain ⟨source, hsource, hpacket⟩ := Option.bind_eq_some_iff.1 hv
  obtain ⟨packet, -, hpair⟩ := Option.map_eq_some_iff.1 hpacket
  rw [v.line_eq_lineText] at hline
  split at hline
  · contradiction
  next hne =>
  refine ⟨v, hv, ?_, by simpa using hne, (Option.some.inj hline).symm⟩
  rw [← hpair]
  exact (Registry.of_find? hsource).1

/-- In a configuration that loads, with plain names of hosts and plain arguments, every line is one
line, and no two calls answer the same line but for the same host, timestamp and measurements. -/
theorem handle_readable {r r' : Resolver} {text text' : String} {config config' : CollectorConfig}
    (hload : CollectorConfig.parse r text = .ok config)
    (hload' : CollectorConfig.parse r' text' = .ok config')
    (hknows : r.KnowsPlain) (hknows' : r'.KnowsPlain)
    (haccepts : config.sources.AcceptsPlain) (haccepts' : config'.sources.AcceptsPlain)
    (d d' : Demux) (sender sender' : SocketAddress) (datagram datagram' : List UInt8)
    {line : String} (h : (d.handle config.sources sender datagram).1 = some line) :
    (∃ front : String, '\n' ∉ front.toList ∧ line = front ++ "\n")
      ∧ ((d'.handle config'.sources sender' datagram').1 = some line →
        ∃ v v', Call.delivery? ⟨config.sources, sender, datagram⟩ = some v
          ∧ Call.delivery? ⟨config'.sources, sender', datagram'⟩ = some v'
          ∧ v.source.host = v'.source.host ∧ v.packet.timestamp = v'.packet.timestamp
          ∧ v.accepted = v'.accepted) := by
  have hhosts := (CollectorConfig.loaded_of_parse hload).resolved
  have hhosts' := (CollectorConfig.loaded_of_parse hload').resolved
  obtain ⟨v, hv, hsource, hne, rfl⟩ := exists_delivery_of_handle h
  have hhost := hknows.plain_of_host (hhosts v.source hsource)
  have hms := v.plain_of_mem_accepted haccepts hsource
  refine ⟨lineText_eq_append_newline hhost hms, ?_⟩
  intro h'
  obtain ⟨v', hv', hsource', -, hline⟩ := exists_delivery_of_handle h'
  have hhost' := hknows'.plain_of_host (hhosts' v'.source hsource')
  have hms' := v'.plain_of_mem_accepted haccepts' hsource'
  obtain ⟨hsame, htime, haccepted⟩ := lineText_injective hhost hhost' hms hms' hline
  exact ⟨v, v', hv, hv', hsame, htime hne, haccepted⟩

/-- The line of a source that is configured by its address, under a plain argument. -/
theorem handle_readable_literalHost :
    let text := "listen = \"127.0.0.1:0\"\n[[source]]\nhost = \"10.0.0.2\"\naccept = [\"load(0)\"]\n"
    let load : StreamKey := ⟨.load, "0", by decide, by simp⟩
    let sources : SourceSet := ⟨[⟨"10.0.0.2", .v4 ⟨10, 0, 0, 2⟩, ⟨[⟨load, none⟩]⟩⟩]⟩
    let config : CollectorConfig := ⟨⟨.v4 ⟨127, 0, 0, 1⟩, 0, 0⟩, none, 65536, sources⟩
    let sender : SocketAddress := ⟨.v4 ⟨10, 0, 0, 2⟩, 0, 40000⟩
    let datagram : List UInt8 :=
      [2, 0, 0, 34, 1, 91, 27, 19, 0, 0, 0, 0, 0, 0, 0, 7, 15, 48, 0, 0, 0, 0, 0, 0, 0,
        15, 49, 0, 0, 0, 0, 0, 0, 0]
    let line := "10.0.0.2;load:0:7:0.00:0.00:0.00;\n"
    CollectorConfig.parse .literal text = .ok config
      ∧ Resolver.literal.KnowsPlain ∧ sources.AcceptsPlain
      ∧ ∀ d d' : Demux, (d.handle sources sender datagram).1 = some line
        ∧ ∀ sender' datagram', (d'.handle sources sender' datagram').1 = some line →
          ∃ v v', Call.delivery? ⟨sources, sender, datagram⟩ = some v
            ∧ Call.delivery? ⟨sources, sender', datagram'⟩ = some v'
            ∧ v.source.host = v'.source.host ∧ v.packet.timestamp = v'.packet.timestamp
            ∧ v.accepted = v'.accepted := by
  intro text load sources config sender datagram line
  have hload : CollectorConfig.parse .literal text = .ok config := ok_of_toOption (by decide +kernel)
  have hplain : sources.AcceptsPlain := by
    intro s hs c hc
    cases List.mem_singleton.1 hs
    cases List.mem_singleton.1 hc
    decide
  let v : Delivery :=
    ⟨⟨"10.0.0.2", .v4 ⟨10, 0, 0, 2⟩, ⟨[⟨load, none⟩]⟩⟩,
      ⟨⟨2, 0, 34, 22747923, 7⟩, .current, datagram.drop 16⟩⟩
  have hdelivery : Call.delivery? ⟨sources, sender, datagram⟩ = some v := by decide +kernel
  have hwellFormed : v.packet.wellFormed = [⟨"0", .zeroed .load⟩, ⟨"1", .zeroed .load⟩] :=
    Packet.wellFormed_of_payload [⟨"0", .zeroed .load⟩, ⟨"1", .zeroed .load⟩] [] (by decide +kernel)
      (by decide) (by decide) rfl
  have haccepted : v.accepted = [⟨"0", .zeroed .load⟩] := by
    rw [Delivery.accepted, hwellFormed]
    decide +kernel
  have hline : lineText v.source.host v.packet.timestamp [⟨"0", .zeroed .load⟩] = line := by
    decide +kernel
  refine ⟨hload, Resolver.literal_knowsPlain, hplain, fun d d' => ?_⟩
  have hanswer : (d.handle sources sender datagram).1 = some line := by
    rw [d.handle_of_delivery hdelivery haccepted (by simp), hline]
  refine ⟨hanswer, fun sender' datagram' hanswer' => ?_⟩
  exact (handle_readable hload hload Resolver.literal_knowsPlain Resolver.literal_knowsPlain hplain
    hplain d d' sender sender' datagram datagram' hanswer).2 hanswer'

/-- Accepted arguments break a line in two, and one passes for two measurements. -/
theorem handle_forgedLine :
    let text := "listen = \"127.0.0.1:0\"\n[[source]]\nhost = \"10.0.0.2\"\n"
      ++ "accept = [\"load(a\\nb)\", \"load(0)\", \"load(1)\", \"load(0:7:0.00:0.00:0.00;load:1)\"]\n"
    let sender : SocketAddress := ⟨.v4 ⟨10, 0, 0, 2⟩, 0, 40000⟩
    let zeros : List UInt8 := [0, 0, 0, 0, 0, 0, 0]
    let broken := [2, 0, 0, 27, 236, 191, 209, 197, 0, 0, 0, 0, 0, 0, 0, 7, 15, 97, 10, 98] ++ zeros
    let joined := [2, 0, 0, 49, 29, 179, 44, 55, 0, 0, 0, 0, 0, 0, 0, 7, 15, 48, 58, 55, 58, 48, 46,
      48, 48, 58, 48, 46, 48, 48, 58, 48, 46, 48, 48, 59, 108, 111, 97, 100, 58, 49] ++ zeros
    let parted := [2, 0, 0, 34, 1, 91, 27, 19, 0, 0, 0, 0, 0, 0, 0, 7, 15, 48] ++ zeros
      ++ [15, 49] ++ zeros
    let forged := "10.0.0.2;load:0:7:0.00:0.00:0.00;load:1:7:0.00:0.00:0.00;\n"
    ∃ config, CollectorConfig.parse .literal text = .ok config
      ∧ (∀ d : Demux, (d.handle config.sources sender broken).1
          = some "10.0.0.2;load:a\nb:7:0.00:0.00:0.00;\n"
        ∧ (d.handle config.sources sender joined).1 = some forged
        ∧ (d.handle config.sources sender parted).1 = some forged)
      ∧ ∃ v v', Call.delivery? ⟨config.sources, sender, joined⟩ = some v
        ∧ Call.delivery? ⟨config.sources, sender, parted⟩ = some v'
        ∧ v.accepted.length = 1 ∧ v'.accepted.length = 2 := by
  intro text sender zeros broken joined parted forged
  let keys : List StreamKey :=
    [⟨.load, "a\nb", by decide, by simp⟩, ⟨.load, "0", by decide, by simp⟩,
      ⟨.load, "1", by decide, by simp⟩,
      ⟨.load, "0:7:0.00:0.00:0.00;load:1", by decide, by simp⟩]
  let source : Source := ⟨"10.0.0.2", .v4 ⟨10, 0, 0, 2⟩, ⟨keys.map (Channel.mk · none)⟩⟩
  let config : CollectorConfig := ⟨⟨.v4 ⟨127, 0, 0, 1⟩, 0, 0⟩, none, 65536, ⟨[source]⟩⟩
  have hload : CollectorConfig.parse .literal text = .ok config := ok_of_toOption (by decide +kernel)
  -- what each of the three datagrams delivers
  let one : Delivery := ⟨source, ⟨⟨2, 0, 27, 3971994053, 7⟩, .current, broken.drop 16⟩⟩
  let two : Delivery := ⟨source, ⟨⟨2, 0, 49, 498281527, 7⟩, .current, joined.drop 16⟩⟩
  let three : Delivery := ⟨source, ⟨⟨2, 0, 34, 22747923, 7⟩, .current, parted.drop 16⟩⟩
  have hone : Call.delivery? ⟨config.sources, sender, broken⟩ = some one := by decide +kernel
  have htwo : Call.delivery? ⟨config.sources, sender, joined⟩ = some two := by decide +kernel
  have hthree : Call.delivery? ⟨config.sources, sender, parted⟩ = some three := by decide +kernel
  have hone' : one.accepted = [⟨"a\nb", .zeroed .load⟩] := by
    rw [Delivery.accepted, Packet.wellFormed_of_payload [⟨"a\nb", .zeroed .load⟩] []
      (by decide +kernel) (by decide) (by decide) rfl]
    decide +kernel
  have htwo' : two.accepted = [⟨"0:7:0.00:0.00:0.00;load:1", .zeroed .load⟩] := by
    rw [Delivery.accepted, Packet.wellFormed_of_payload
      [⟨"0:7:0.00:0.00:0.00;load:1", .zeroed .load⟩] [] (by decide +kernel) (by decide) (by decide) rfl]
    decide +kernel
  have hthree' : three.accepted = [⟨"0", .zeroed .load⟩, ⟨"1", .zeroed .load⟩] := by
    rw [Delivery.accepted, Packet.wellFormed_of_payload
      [⟨"0", .zeroed .load⟩, ⟨"1", .zeroed .load⟩] [] (by decide +kernel) (by decide) (by decide) rfl]
    decide +kernel
  refine ⟨config, hload, ?_, two, three, htwo, hthree, by rw [htwo']; rfl, by rw [hthree']; rfl⟩
  intro d
  refine ⟨?_, ?_, ?_⟩
  · rw [d.handle_of_delivery hone hone' (by simp)]
    decide +kernel
  · rw [d.handle_of_delivery htwo htwo' (by simp)]
    decide +kernel
  · rw [d.handle_of_delivery hthree hthree' (by simp)]
    decide +kernel

end Demux
end Telemetry
