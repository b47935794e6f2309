import Mathlib.Data.List.ReduceOption
import Telemetry.Proofs.Collector.Delivery
import Telemetry.Proofs.Collector.Recording
import Telemetry.Proofs.Config.Registry
import Telemetry.Proofs.Packet.Reencoding

/-!
# Demultiplexing — runs of a demultiplexer

A `Delivery` is a packet that passed, with the source that it comes from.  `Demux.Handled` says what
one call does: it counts an unknown sender, it counts a rejected datagram, or it routes a delivery.
What a run answers, counts and records is then read off the deliveries of its calls
(`Demux.run_deliveries`); calls without one leave no trace but in their own two counters.
-/

namespace Telemetry

/-- A packet that passed, with the source that it comes from. -/
structure Delivery where
  source : Source
  packet : Packet
  deriving DecidableEq

namespace Delivery

def entries (v : Delivery) : List String :=
  (v.packet.wellFormed.filter v.source.accepts).map fun m =>
    s!"{m.kind.name}:{m.argument}:{v.packet.timestamp}{m.render .update};"

def line (v : Delivery) : Option String :=
  if v.entries.isEmpty then none
  else some (v.source.host ++ ";" ++ String.join v.entries ++ "\n")

def dropped (v : Delivery) : List Measurement :=
  v.packet.wellFormed.filter fun m => !v.source.accepts m

/-- For each measurement that the source may send, the update of the series that its channel names,
if it names one. -/
def updates (v : Delivery) : List (FilePath × String) :=
  v.packet.wellFormed.filterMap fun m =>
    (v.source.accepts? m.kind m.argument).bind fun channel =>
      channel.sink.map fun path => (path, s!"{v.packet.timestamp}{m.render .update}")

theorem length_entries (v : Delivery) :
    v.entries.length = v.packet.wellFormed.countP v.source.accepts := by
  rw [entries, List.length_map, List.countP_eq_length_filter]

theorem length_dropped (v : Delivery) :
    v.dropped.length = v.packet.wellFormed.countP fun m => !v.source.accepts m := by
  rw [dropped, List.countP_eq_length_filter]

/-- Every measurement that is considered is an entry or dropped. -/
theorem length_entries_add_dropped (v : Delivery) :
    v.entries.length + v.dropped.length = v.packet.wellFormed.length := by
  rw [length_entries, length_dropped,
    List.length_eq_countP_add_countP v.source.accepts (l := v.packet.wellFormed)]
  simp

theorem length_flatMap_entries_add_dropped (vs : List Delivery) :
    (vs.flatMap entries).length + (vs.flatMap dropped).length
      = (vs.flatMap fun v => v.packet.wellFormed).length := by
  induction vs with
  | nil => rfl
  | cons v vs ih =>
      have hv := v.length_entries_add_dropped
      simp only [List.flatMap_cons, List.length_append]
      omega

end Delivery

namespace Demux

theorem entryText_eq (timestamp : UInt64) (m : Measurement) :
    entryText timestamp m = s!"{m.kind.name}:{m.argument}:{timestamp}{m.render .update};" := by
  simp only [entryText, updateText]
  simp [toString, String.append_assoc]

theorem line_eq_lineOf (v : Delivery) :
    v.line = lineOf v.source.host
      ((v.packet.wellFormed.filter v.source.accepts).map (entryText v.packet.timestamp)) := by
  simp only [funext (entryText_eq v.packet.timestamp)]
  rfl

theorem foldl_store (timestamp : UInt64) (entries : List (Channel × Measurement)) (s : Series) :
    entries.foldl (store timestamp) s
      = s.updateAll (entries.filterMap fun e =>
          e.1.sink.map fun path => (path, updateText timestamp e.2)) := by
  induction entries generalizing s with
  | nil => rfl
  | cons e entries ih =>
      rw [List.foldl_cons, ih, List.filterMap_cons, store]
      cases e.1.sink with
      | none => rfl
      | some path => rfl

theorem series_route (d : Demux) (v : Delivery) :
    (d.route v.source v.packet).2.series = d.series.updateAll v.updates := by
  have hupdates : v.updates = (acceptedFrom v.source v.packet.wellFormed).filterMap fun e =>
      e.1.sink.map fun path => (path, updateText v.packet.timestamp e.2) := by
    rw [acceptedFrom, List.filterMap_filterMap, Delivery.updates]
    congr 1
    funext m
    cases v.source.accepts? m.kind m.argument with
    | none => rfl
    | some channel => rfl
  rw [hupdates, ← foldl_store, route]
  dsimp only
  split <;> rfl

/-! ## One call -/

namespace Call

/-- What a call delivers, if its sender is known and its datagram passes. -/
def delivery? (c : Call) : Option Delivery :=
  (c.sources.find? c.sender.ip.canonical).bind fun source =>
    (Packet.parse c.datagram).toOption.map (Delivery.mk source)

def isUnknown (c : Call) : Bool :=
  (c.sources.find? c.sender.ip.canonical).isNone

def isRejected (c : Call) : Bool :=
  !c.isUnknown && c.delivery?.isNone

theorem of_unknown {c : Call} (hsource : c.sources.find? c.sender.ip.canonical = none) :
    c.delivery? = none ∧ c.isUnknown = true ∧ c.isRejected = false := by
  have hunknown : c.isUnknown = true := by rw [isUnknown, hsource, Option.isNone_none]
  have hnone : c.delivery? = none := by rw [delivery?, hsource, Option.bind_none]
  exact ⟨hnone, hunknown, by rw [isRejected, hunknown, Bool.not_true, Bool.false_and]⟩

variable {c : Call} {source : Source}

theorem of_rejected {r : Rejection} (hsource : c.sources.find? c.sender.ip.canonical = some source)
    (h : Packet.parse c.datagram = .error r) :
    c.delivery? = none ∧ c.isUnknown = false ∧ c.isRejected = true := by
  have hknown : c.isUnknown = false := by rw [isUnknown, hsource, Option.isNone_some]
  have hnone : c.delivery? = none := by rw [delivery?, hsource, h]; rfl
  exact ⟨hnone, hknown, by rw [isRejected, hknown, hnone]; rfl⟩

theorem of_routed {p : Packet} (hsource : c.sources.find? c.sender.ip.canonical = some source)
    (h : Packet.parse c.datagram = .ok p) :
    c.delivery? = some ⟨source, p⟩ ∧ c.isUnknown = false ∧ c.isRejected = false := by
  have hknown : c.isUnknown = false := by rw [isUnknown, hsource, Option.isNone_some]
  have hsome : c.delivery? = some ⟨source, p⟩ := by rw [delivery?, hsource, h]; rfl
  exact ⟨hsome, hknown, by rw [isRejected, hsome, Option.isNone_some, Bool.and_false]⟩

/-- A call has an unknown sender, is rejected, or delivers. -/
theorem length_deliveries (calls : List Call) :
    (calls.filterMap delivery?).length + calls.countP isUnknown + calls.countP isRejected
      = calls.length := by
  induction calls with
  | nil => rfl
  | cons c calls ih =>
      rw [List.countP_cons, List.countP_cons, List.filterMap_cons, List.length_cons, ← ih]
      cases hsource : c.sources.find? c.sender.ip.canonical with
      | none =>
          obtain ⟨hnone, hunknown, hrejected⟩ := of_unknown hsource
          rw [hnone, if_pos hunknown, if_neg (by simp [hrejected])]
          dsimp only
          omega
      | some source =>
          cases hparse : Packet.parse c.datagram with
          | error r =>
              obtain ⟨hnone, hunknown, hrejected⟩ := of_rejected hsource hparse
              rw [hnone, if_neg (by simp [hunknown]), if_pos hrejected]
              dsimp only
              omega
          | ok p =>
              obtain ⟨hsome, hunknown, hrejected⟩ := of_routed hsource hparse
              rw [hsome, if_neg (by simp [hunknown]), if_neg (by simp [hrejected])]
              dsimp only
              rw [List.length_cons]
              omega

/-- Calls that deliver are neither of an unknown sender nor rejected. -/
theorem countP_delivering (calls : List Call) :
    (calls.filter fun c => c.delivery?.isSome).countP isUnknown = 0
      ∧ (calls.filter fun c => c.delivery?.isSome).countP isRejected = 0 := by
  have hdeliveries := length_deliveries (calls.filter fun c => c.delivery?.isSome)
  have hall : ((calls.filter fun c => c.delivery?.isSome).filterMap delivery?).length
      = (calls.filter fun c => c.delivery?.isSome).length := by
    rw [List.length_filterMap_eq_countP, List.countP_eq_length]
    exact fun c hc => (List.mem_filter.1 hc).2
  omega

theorem filterMap_delivering (calls : List Call) :
    (calls.filter fun c => c.delivery?.isSome).filterMap delivery? = calls.filterMap delivery? := by
  rw [List.filterMap_filter]
  congr 1
  funext c
  cases hc : c.delivery? with
  | none => rfl
  | some v => rfl

end Call

/-- What a call does to a demultiplexer: the line it answers, and the demultiplexer after it. -/
inductive Handled (d : Demux) (c : Call) : Option String → Demux → Prop
  /-- no source has the address of the sender -/
  | unknown (h : ∀ source ∈ c.sources.entries, source.address ≠ c.sender.ip.canonical) :
      Handled d c none
        { d with stats := { d.stats with unknownSources := d.stats.unknownSources + 1 } }
  | rejected {source : Source} {r : Rejection}
      (hsource : c.sources.find? c.sender.ip.canonical = some source)
      (h : Packet.parse c.datagram = .error r) :
      Handled d c none { d with stats := { d.stats with rejected := d.stats.rejected + 1 } }
  /-- what is considered is in front of the first malformed measurement -/
  | routed {source : Source} {p : Packet}
      (hsource : c.sources.find? c.sender.ip.canonical = some source)
      (h : Packet.parse c.datagram = .ok p)
      (hitems : p.measurements = p.wellFormed.map .ok
        ∨ ∃ e, p.measurements = p.wellFormed.map .ok ++ [.error e]) :
      Handled d c (Delivery.mk source p).line
        { stats := d.stats.after 1 source p.wellFormed
          series := d.series.updateAll (Delivery.mk source p).updates }

/-- A call does one of the three. -/
theorem handled (d : Demux) (c : Call) :
    Handled d c (d.handle c.sources c.sender c.datagram).1
      (d.handle c.sources c.sender c.datagram).2 := by
  rw [handle]
  cases hsource : c.sources.find? c.sender.ip.canonical with
  | none => exact .unknown (Registry.find?_eq_none_iff.1 hsource)
  | some source =>
      dsimp only
      cases hparse : Packet.parse c.datagram with
      | error r => exact .rejected hsource hparse
      | ok p =>
          obtain ⟨_, _, _, hitems⟩ := p.measurements_eq
          obtain ⟨hline, hstats⟩ := d.route_eq source p
          have hseries := d.series_route ⟨source, p⟩
          have hafter := Handled.routed (d := d) hsource hparse (hitems.imp_left And.left)
          rw [line_eq_lineOf, ← hline, ← hstats, ← hseries] at hafter
          exact hafter

/-! ## Runs -/

/-- A whole run, in terms of what its calls deliver. -/
theorem run_eq (d : Demux) (calls : List Call) :
    d.run calls = (calls.map fun c => c.delivery?.bind Delivery.line,
      { stats :=
          { packets := d.stats.packets + (calls.filterMap Call.delivery?).length
            unknownSources := d.stats.unknownSources + calls.countP Call.isUnknown
            rejected := d.stats.rejected + calls.countP Call.isRejected
            records := d.stats.records
              + ((calls.filterMap Call.delivery?).flatMap Delivery.entries).length
            droppedRecords := d.stats.droppedRecords
              + ((calls.filterMap Call.delivery?).flatMap Delivery.dropped).length }
        series := d.series.updateAll
          ((calls.filterMap Call.delivery?).flatMap Delivery.updates) }) := by
  -- the rest of a run starts from whatever the first call leaves
  induction calls generalizing d with
  | nil => rfl
  | cons c calls ih =>
      have hc := d.handled c
      rw [run]
      dsimp only
      rw [ih]
      generalize (d.handle c.sources c.sender c.datagram).1 = line at hc ⊢
      generalize (d.handle c.sources c.sender c.datagram).2 = d' at hc ⊢
      cases hc with
      | unknown h =>
          obtain ⟨hnone, hunknown, hrejected⟩ := Call.of_unknown (Registry.find?_eq_none_iff.2 h)
          simp only [List.map_cons, List.filterMap_cons, List.countP_cons, hnone, hunknown, hrejected]
          simp [Nat.add_assoc, Nat.add_comm 1]
      | rejected hsource h =>
          obtain ⟨hnone, hunknown, hrejected⟩ := Call.of_rejected hsource h
          simp only [List.map_cons, List.filterMap_cons, List.countP_cons, hnone, hunknown, hrejected]
          simp [Nat.add_assoc, Nat.add_comm 1]
      | @routed source p hsource h hitems =>
          obtain ⟨hsome, hunknown, hrejected⟩ := Call.of_routed hsource h
          have hentries := Delivery.length_entries ⟨source, p⟩
          have hdropped := Delivery.length_dropped ⟨source, p⟩
          simp only [List.map_cons, List.filterMap_cons, List.countP_cons, hsome, hunknown, hrejected,
            List.flatMap_cons, List.length_append, List.length_cons, Series.updateAll_append, hentries,
            hdropped, DemuxStats.after]
          simp [Nat.add_assoc, Nat.add_comm 1]

theorem run_append (d : Demux) (calls more : List Call) :
    d.run (calls ++ more)
      = ((d.run calls).1 ++ ((d.run calls).2.run more).1, ((d.run calls).2.run more).2) := by
  induction calls generalizing d with
  | nil => rfl
  | cons c calls ih =>
      rw [List.cons_append, run, run]
      dsimp only
      rw [ih]
      rfl

/-- Within a run, a call does one of the three to what the calls before it leave. -/
theorem handled_run (d : Demux) (before : List Call) (c : Call) (after : List Call) :
    ∃ line, (d.run (before ++ c :: after)).1[before.length]? = some line
      ∧ Handled (d.run before).2 c line (d.run (before ++ [c])).2 := by
  have hlength : (d.run before).1.length = before.length := by
    rw [run_eq, List.length_map]
  have hnext : (d.run (before ++ [c])).2
      = ((d.run before).2.handle c.sources c.sender c.datagram).2 := by
    rw [run_append]
    rfl
  refine ⟨_, ?_, hnext ▸ handled _ c⟩
  rw [run_append, List.getElem?_append_right (Nat.le_of_eq hlength), hlength, Nat.sub_self]
  rfl

/-- The lines that a run answers are those of its deliveries. -/
theorem reduceOption_run (d : Demux) (calls : List Call) :
    (d.run calls).1.reduceOption = (calls.filterMap Call.delivery?).filterMap Delivery.line := by
  rw [run_eq, List.reduceOption, List.filterMap_map, List.filterMap_filterMap]
  rfl

/-- A run from a fresh state.  Each call does one of three things; the counters count the calls, the
entries of the lines and what was considered; each series file gets a line for each update of a
delivery whose path leads to it, and calls that deliver nothing might as well not have come. -/
theorem run_deliveries (files : Files) (calls : List Call) :
    let answer := (onFiles files).run calls
    let deliveries := calls.filterMap Call.delivery?
    let updates := deliveries.flatMap Delivery.updates
    let delivering := calls.filter fun c => c.delivery?.isSome
    let stats := answer.2.stats
    (∀ before c after, calls = before ++ c :: after → ∃ line,
        answer.1[before.length]? = some line
          ∧ Handled ((onFiles files).run before).2 c line ((onFiles files).run (before ++ [c])).2)
      ∧ stats.packets + stats.unknownSources + stats.rejected = calls.length
      ∧ answer.1 = calls.map (fun c => c.delivery?.bind Delivery.line)
      ∧ stats.records = (deliveries.flatMap Delivery.entries).length
      ∧ stats.records + stats.droppedRecords
        = (deliveries.flatMap fun v => v.packet.wellFormed).length
      ∧ ((Series.onFiles files).stored updates = updates →
        (∀ u ∈ updates, ∃ l, files.locate? u.1.identity = some l
            ∧ (answer.2.series.files.node? l).isSome)
          ∧ ∀ l, answer.2.series.files.node? l
            = Node.appended (files.node? l) (Series.linesAt files l updates))
      ∧ ((onFiles files).run delivering).1.reduceOption = answer.1.reduceOption
      ∧ ((onFiles files).run delivering).2
        = { answer.2 with stats := { stats with unknownSources := 0, rejected := 0 } } := by
  intro answer deliveries updates delivering stats
  have hrun : answer = _ := (onFiles files).run_eq calls
  have hstats : stats = _ := congrArg (fun a : List (Option String) × Demux => a.2.stats) hrun
  have hseries : answer.2.series = (Series.onFiles files).updateAll updates :=
    congrArg (fun a : List (Option String) × Demux => a.2.series) hrun
  have hsame : delivering.filterMap Call.delivery? = deliveries := Call.filterMap_delivering calls
  refine ⟨?_, ?_, congrArg Prod.fst hrun, ?_, ?_, ?_, ?_, ?_⟩
  · rintro before c after rfl
    exact (onFiles files).handled_run before c after
  · rw [hstats]
    simpa [onFiles, DemuxStats.zero] using Call.length_deliveries calls
  · rw [hstats]
    exact Nat.zero_add _
  · rw [hstats]
    simpa [onFiles, DemuxStats.zero] using
      Delivery.length_flatMap_entries_add_dropped deliveries
  · intro hstored
    have hrecorded := Series.files_updateAll files updates
    rw [hstored, ← hseries] at hrecorded
    exact ⟨hrecorded.located, hrecorded.node?_eq⟩
  · rw [reduceOption_run, reduceOption_run, hsame]
  -- what remains of the run has the same deliveries, and only the two counters differ
  · obtain ⟨hunknown, hrejected⟩ := Call.countP_delivering calls
    rw [hstats, hrun, run_eq, hsame, hunknown, hrejected]
    rfl

/-- Two channels share a file under two paths; the second packet ends in a malformed measurement, and
between the two come a datagram of an unknown sender and one that is cut short. -/
theorem run_deliveries_sharedFile :
    let zero : StreamKey := ⟨.sensor, "0", by decide, by simp⟩
    let one : StreamKey := ⟨.sensor, "1", by decide, by simp⟩
    let alpha : Source := ⟨"alpha", .v4 ⟨10, 0, 0, 2⟩, ⟨[⟨zero, some "a"⟩, ⟨one, some "./a"⟩]⟩⟩
    let current : List UInt8 :=
      [2, 0, 0, 49, 24, 251, 129, 150, 0, 0, 0, 0, 0, 0, 0, 7, 8, 48, 0, 0, 0, 0, 0, 0, 0, 0, 0, 8,
        49, 0, 0, 0, 0, 0, 0, 0, 0, 0, 8, 50, 0, 0, 0, 0, 0, 0, 0, 0, 0]
    let older : List UInt8 :=
      [1, 0, 0, 28, 50, 40, 9, 94, 0, 0, 0, 0, 0, 0, 0, 9, 8, 48, 0, 0, 0, 0, 0, 0, 0, 0, 0, 200]
    let calls : List Call :=
      [⟨⟨[alpha]⟩, ⟨.v6 (Ipv4.mapped ⟨10, 0, 0, 2⟩), 0, 40000⟩, current⟩,
        ⟨⟨[alpha]⟩, ⟨.v4 ⟨10, 0, 0, 9⟩, 0, 40000⟩, current⟩,
        ⟨⟨[alpha]⟩, ⟨.v4 ⟨10, 0, 0, 2⟩, 0, 40000⟩, [2, 0]⟩,
        ⟨⟨[alpha]⟩, ⟨.v4 ⟨10, 0, 0, 2⟩, 0, 40000⟩, older⟩]
    let answer := (onFiles .fresh).run calls
    answer.1 =
        [some "alpha;sensor:0:7:0.000000;sensor:1:7:0.000000;\n", none, none,
          some "alpha;sensor:0:9:0.000000;\n"]
      ∧ answer.2.stats.packets + answer.2.stats.unknownSources + answer.2.stats.rejected = 4
      ∧ answer.2.stats.records = 3
      ∧ answer.2.stats.records + answer.2.stats.droppedRecords = 4
      ∧ answer.2.series.files.node? ["tmp", "work", "a"]
        = some (.file (Series.line "7:0.000000" ++ Series.line "7:0.000000"
          ++ Series.line "9:0.000000")) := by
  intro zero one alpha current older calls answer
  let first : Delivery := ⟨alpha, ⟨⟨2, 0, 49, 419135894, 7⟩, .current, current.drop 16⟩⟩
  let second : Delivery := ⟨alpha, ⟨⟨1, 0, 28, 841484638, 9⟩, .older, older.drop 16⟩⟩
  have hdeliveries : calls.map Call.delivery? = [some first, none, none, some second] := by
    decide +kernel
  have hfirst : first.packet.wellFormed
      = [⟨"0", .zeroed .sensor⟩, ⟨"1", .zeroed .sensor⟩, ⟨"2", .zeroed .sensor⟩] :=
    Packet.wellFormed_of_payload
      [⟨"0", .zeroed .sensor⟩, ⟨"1", .zeroed .sensor⟩, ⟨"2", .zeroed .sensor⟩] [] (by decide +kernel)
      (by decide) (by decide) rfl
  have hsecond : second.packet.wellFormed = [⟨"0", .zeroed .sensor⟩] :=
    Packet.wellFormed_of_payload [⟨"0", .zeroed .sensor⟩] [200] (by decide +kernel) (by decide)
      (by decide) rfl
  have hlist : calls.filterMap Call.delivery? = [first, second] := by
    have hlist := congrArg (List.filterMap id) hdeliveries
    rw [List.filterMap_map] at hlist
    exact hlist
  have hfirstEntries : first.entries
      = ["sensor:0:7:0.000000;", "sensor:1:7:0.000000;"] := by
    rw [Delivery.entries, hfirst]
    decide +kernel
  have hsecondEntries : second.entries = ["sensor:0:9:0.000000;"] := by
    rw [Delivery.entries, hsecond]
    decide +kernel
  let updates : List (FilePath × String) :=
    [("a", "7:0.000000"), ("./a", "7:0.000000"), ("a", "9:0.000000")]
  have hupdates : [first, second].flatMap Delivery.updates = updates := by
    rw [List.flatMap_cons, List.flatMap_cons, List.flatMap_nil, Delivery.updates, Delivery.updates,
      hfirst, hsecond]
    decide +kernel
  obtain ⟨-, hcount, hlines, hrecords, hconsidered, hfiles, -, -⟩ := run_deliveries .fresh calls
  rw [hlist] at hrecords hconsidered hfiles
  rw [hupdates] at hfiles
  refine ⟨?_, hcount, ?_, ?_, ?_⟩
  · have hbind := congrArg (List.map (Option.bind · Delivery.line)) hdeliveries
    rw [List.map_map] at hbind
    refine hlines.trans (hbind.trans ?_)
    simp only [List.map_cons, List.map_nil, Option.bind_some, Option.bind_none, Delivery.line,
      hfirstEntries, hsecondEntries]
    decide +kernel
  · rw [hrecords, List.flatMap_cons, List.flatMap_cons, hfirstEntries, hsecondEntries]
    rfl
  · rw [hconsidered, List.flatMap_cons, List.flatMap_cons, hfirst, hsecond]
    rfl
  · let target : Location := ["tmp", "work", "a"]
    have hfollow : ∀ path : FilePath, path = "a" ∨ path = "./a" →
        Files.fresh.follow path = .ok target ∧ path.endsInSlash = false := by
      rintro path (rfl | rfl)
      · decide
      · decide
    have hnone : Files.fresh.node? target = none := by decide
    have hpaths : ∀ u ∈ updates, u.1 = "a" ∨ u.1 = "./a" := by decide
    have hstored : (Series.onFiles .fresh).stored updates = updates := by
      apply (Series.Recorded.onFiles .fresh).stored_eq_self
      intro u hu
      obtain ⟨hpath, hslash⟩ := hfollow u.1 (hpaths u hu)
      obtain ⟨opened, hopened⟩ :=
        Files.openForAppend_of_follow hpath hslash (by rw [hnone]; decide)
      exact ⟨target, opened, hopened, by rw [hnone]; decide⟩
    have hplainAt := Files.locate?_of_follow (hfollow "a" (.inl rfl)).1
    have hdottedAt := Files.locate?_of_follow (hfollow "./a" (.inr rfl)).1
    rw [(hfiles hstored).2 target, hnone, Series.linesAt]
    simp only [updates, List.flatMap_cons, List.flatMap_nil, hplainAt, hdottedAt, if_true,
      List.append_nil, ← List.append_assoc]
    exact if_neg (List.append_ne_nil_of_right_ne_nil _ (Series.line_ne_nil _))

end Demux
end Telemetry
