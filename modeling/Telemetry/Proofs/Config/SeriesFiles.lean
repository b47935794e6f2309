import Mathlib.Data.List.Induction
import Telemetry.Proofs.Config.Loading
import Telemetry.Proofs.Toml.Distinct

/-!
# Series files — which lines of a table the loaded source keeps

A table of series files has a line for each file: the text of a stream and a path.  Texts that differ
in their blanks name one stream, and the lines go into the table by the stream that they name, where
the last one for a stream stays (`SinkTable.find?_ofFiles`).  So the stream of every line is one that
the loaded source writes, but to the file of the last line that names it: the path on a line before is
dropped without a word.
-/

namespace Telemetry

variable {ε α β γ : Type}

theorem forall₂_comp {asks : α → β → Prop} {gives : β → γ → Prop} {as : List α} {bs : List β}
    {cs : List γ} (h : List.Forall₂ asks as bs) (h' : List.Forall₂ gives bs cs) :
    List.Forall₂ (fun a c => ∃ b, asks a b ∧ gives b c) as cs := by
  induction h generalizing cs with
  | nil =>
      cases h'
      exact .nil
  | cons hasks _ ih =>
      cases h' with
      | cons hgives hrest => exact .cons ⟨_, hasks, hgives⟩ (ih hrest)

theorem split_of_forall₂ {asks : α → β → Prop} {before after : List α} {a : α} {bs : List β}
    (h : List.Forall₂ asks (before ++ a :: after) bs) :
    ∃ before' b after', bs = before' ++ b :: after' ∧ asks a b ∧ List.Forall₂ asks after after' := by
  induction before generalizing bs with
  | nil =>
      obtain _ | ⟨ha, hafter⟩ := h
      exact ⟨[], _, _, rfl, ha, hafter⟩
  | cons x before ih =>
      obtain _ | ⟨-, hrest⟩ := h
      obtain ⟨before', b, after', rfl, ha, hafter⟩ := ih hrest
      exact ⟨_ :: before', b, after', rfl, ha, hafter⟩

/-! ## Fields of a table -/

section Fields

variable {name : String} {take : α → String × β → Except ε α} {field : α → Option γ}
  {read : β → Except ε γ} {p p' : α} {es : List (String × β)}

/-- A value that is read for another field leaves this one. -/
theorem field_of_map {δ : Type} {read : Except ε δ} {put : δ → α} (h : read.map put = .ok p')
    (hput : ∀ d, field (put d) = field p) : field p' = field p := by
  obtain ⟨d, -, hd⟩ := map_eq_ok h
  rw [hd]
  exact hput d

theorem field_of_notMem (hother : ∀ {p e p'}, e.1 ≠ name → take p e = .ok p' → field p' = field p)
    (hfree : name ∉ es.map Prod.fst) (h : es.foldlM take p = .ok p') : field p' = field p := by
  induction es generalizing p with
  | nil =>
      cases h
      rfl
  | cons e es ih =>
      rw [List.map_cons, List.mem_cons, not_or] at hfree
      rw [List.foldlM_cons] at h
      obtain ⟨next, hnext, h⟩ := ok_of_bind h
      rw [ih hfree.2 h, hother (Ne.symm hfree.1) hnext]

/-- A field that is taken under one name has in the end the value that stands under that name. -/
theorem field_of_mem (hother : ∀ {p e p'}, e.1 ≠ name → take p e = .ok p' → field p' = field p)
    (hthis : ∀ {p v p'}, take p (name, v) = .ok p' → ∃ c, read v = .ok c ∧ field p' = some c)
    (hkeys : (es.map Prod.fst).Nodup) {v : β} (hmem : (name, v) ∈ es)
    (h : es.foldlM take p = .ok p') : ∃ c, read v = .ok c ∧ field p' = some c := by
  induction es generalizing p with
  | nil => exact absurd hmem List.not_mem_nil
  | cons e es ih =>
      rw [List.map_cons, List.nodup_cons] at hkeys
      rw [List.foldlM_cons] at h
      obtain ⟨next, hnext, hrest⟩ := ok_of_bind h
      rcases List.mem_cons.1 hmem with rfl | hmem
      -- no later entry has the name, so the field stays
      · obtain ⟨c, hread, hfield⟩ := hthis hnext
        exact ⟨c, hread, (field_of_notMem hother hkeys.1 hrest).trans hfield⟩
      · exact ih hkeys.2 hmem hrest

end Fields

/-! ## Tables of series files -/

namespace SinkTable

def ofFiles (files : List (StreamKey × String)) : SinkTable :=
  files.foldl (fun t file => t.put file.1 file.2) []

variable {t : SinkTable} {k k' : StreamKey} {path : String} {files : List (StreamKey × String)}

theorem find?_put_self : (t.put k path).find? k = some path := by
  have hnone : List.find? (fun e => decide (e.1 = k)) (t.filter fun e => decide (e.1 ≠ k)) = none := by
    simp
  rw [find?, put, List.find?_append, hnone]
  simp

theorem find?_put_of_ne (h : k' ≠ k) : (t.put k path).find? k' = t.find? k' := by
  have herase : (t.erase k).find? k' = t.find? k' := find?_erase h
  rw [← herase, find?, find?, put, List.find?_append, erase]
  simp [Ne.symm h]

theorem find?_foldl_put (h : ∀ file ∈ files, file.1 ≠ k) :
    (files.foldl (fun t file => t.put file.1 file.2) t).find? k = t.find? k := by
  induction files generalizing t with
  | nil => rfl
  | cons file files ih =>
      rw [List.forall_mem_cons] at h
      rw [List.foldl_cons, ih h.2, find?_put_of_ne (Ne.symm h.1)]

/-- The last file that was put in for a stream is its file. -/
theorem find?_ofFiles {before after : List (StreamKey × String)}
    (h : ∀ file ∈ after, file.1 ≠ k) :
    (ofFiles (before ++ (k, path) :: after)).find? k = some path := by
  rw [ofFiles, List.foldl_append, List.foldl_cons, find?_foldl_put h, find?_put_self]

/-- Every stream that a file was put in for has a file. -/
theorem exists_find?_ofFiles (h : (k, path) ∈ files) : ∃ last, (ofFiles files).find? k = some last := by
  -- from the end of the list, since the file that was put in last decides
  induction files using List.reverseRecOn with
  | nil => exact absurd h List.not_mem_nil
  | append_singleton files file ih =>
      rw [ofFiles, List.foldl_append, List.foldl_cons, List.foldl_nil, ← ofFiles]
      by_cases hfile : file.1 = k
      · rw [hfile]
        exact ⟨_, find?_put_self⟩
      · rw [find?_put_of_ne (Ne.symm hfile)]
        refine ih ((List.mem_append.1 h).resolve_right ?_)
        intro hlast
        rw [← List.mem_singleton.1 hlast] at hfile
        exact hfile rfl

end SinkTable

/-! ## Sources -/

namespace SourceEntry

/-- The text of a stream and the path of its file, on a line of a table; a table with a line that has
no path is refused. -/
def namedFile? (line : String × Toml.Value) : Option (String × String) :=
  match line.2 with
  | .string path => some (line.1, path)
  | _ => none

def namedFilesIn : Toml.Value → List (String × String)
  | .table _ lines => lines.filterMap namedFile?
  | _ => []

/-- The files that a source's table names, where its fields stand by name or by position. -/
def namedFiles : Toml.Value → List (String × String)
  | .table _ es => ((Toml.Entries.get? es "write").map namedFilesIn).getD []
  | .array items | .tables items => (items[2]?.map namedFilesIn).getD []
  | _ => []

def Names (line : String × String) (file : StreamKey × String) : Prop :=
  StreamKey.parse line.1 = .ok file.1 ∧ line.2 = file.2

def Gives (line : String × Toml.Value) (file : StreamKey × String) : Prop :=
  StreamKey.parse line.1 = .ok file.1 ∧ line.2 = .string file.2

theorem gives_of_sinkTable {lines : Toml.Entries} {t : SinkTable} (h : sinkTable lines = .ok t) :
    ∃ files, List.Forall₂ Gives lines files ∧ t = SinkTable.ofFiles files := by
  refine foldl_of_foldlM ?_ h
  rintro t ⟨text, v⟩ t' htake
  dsimp only at htake
  split at htake
  next key hkey =>
    obtain ⟨_, hpure, htake⟩ := ok_of_bind htake
    cases hpure
    obtain ⟨path, hpath, htake⟩ := ok_of_bind htake
    cases htake
    rw [Toml.asString.eq_def] at hpath
    split at hpath
    next =>
      cases hpath
      exact ⟨(key, path), ⟨hkey, rfl⟩, rfl⟩
    · contradiction
  · contradiction

theorem names_of_gives {lines : Toml.Entries} {files : List (StreamKey × String)}
    (h : List.Forall₂ Gives lines files) : List.Forall₂ Names (lines.filterMap namedFile?) files := by
  induction h with
  | nil => exact .nil
  | cons hgives _ ih =>
      rw [List.filterMap_cons, namedFile?, hgives.2]
      exact .cons ⟨hgives.1, rfl⟩ ih

theorem names_of_sinkTableOfValue {v : Toml.Value} {t : SinkTable} (h : sinkTableOfValue v = .ok t) :
    ∃ files, List.Forall₂ Names (namedFilesIn v) files ∧ t = SinkTable.ofFiles files := by
  rw [sinkTableOfValue.eq_def] at h
  split at h
  next =>
    obtain ⟨files, hgives, ht⟩ := gives_of_sinkTable h
    exact ⟨files, names_of_gives hgives, ht⟩
  next =>
    -- a date has one line, and no path on it
    obtain ⟨files, hgives, -⟩ := gives_of_sinkTable h
    obtain _ | ⟨hgives, -⟩ := hgives
    exact Toml.Value.noConfusion hgives.2
  · contradiction

theorem takeField_other {p p' : Filled} {e : String × Toml.Value} (hname : e.1 ≠ "write")
    (h : takeField p e = .ok p') : p'.write = p.write := by
  rw [takeField.eq_def] at h
  split at h
  case h_1 => exact field_of_map h fun _ => rfl
  case h_2 => exact field_of_map h fun _ => rfl
  case h_3 => exact absurd rfl hname
  case h_4 => contradiction

theorem takeField_write {p p' : Filled} {v : Toml.Value} (h : takeField p ("write", v) = .ok p') :
    ∃ t, sinkTableOfValue v = .ok t ∧ p'.write = some t := by
  obtain ⟨t, ht, rfl⟩ := map_eq_ok h
  exact ⟨t, ht, rfl⟩

theorem names_of_ofFields {form : Toml.TableForm} {es : Toml.Entries} {entry : SourceEntry}
    (hdistinct : es.Distinct) (h : ofFields es = .ok entry) :
    ∃ files, List.Forall₂ Names (namedFiles (.table form es)) files
      ∧ entry.write = SinkTable.ofFiles files := by
  obtain ⟨p, hp, h⟩ := ok_of_bind h
  have hentry : entry.write = p.write.getD [] := by
    split at h
    · contradiction
    · contradiction
    next =>
      cases h
      rfl
  rw [hentry, namedFiles]
  cases hget : Toml.Entries.get? es "write" with
  | none =>
      rw [field_of_notMem takeField_other (Toml.Entries.get?_eq_none_iff.1 hget) hp]
      exact ⟨[], .nil, rfl⟩
  | some v =>
      obtain ⟨t, ht, hwrite⟩ := field_of_mem takeField_other takeField_write hdistinct.keys
        (Toml.Entries.mem_of_get? hget) hp
      rw [hwrite]
      exact names_of_sinkTableOfValue ht

theorem names_of_ofItems {items : List Toml.Value} {entry : SourceEntry}
    (h : ofItems items = .ok entry) :
    ∃ files, List.Forall₂ Names ((items[2]?.map namedFilesIn).getD []) files
      ∧ entry.write = SinkTable.ofFiles files := by
  rw [ofItems.eq_def] at h
  dsimp only at h
  split at h
  · contradiction
  obtain ⟨host, -, h⟩ := ok_of_bind h
  split at h
  · contradiction
  obtain ⟨accept, -, h⟩ := ok_of_bind h
  split at h
  next =>
    cases h
    exact ⟨[], .nil, rfl⟩
  next =>
    obtain ⟨t, ht, h⟩ := ok_of_bind h
    cases h
    exact names_of_sinkTableOfValue ht

/-- The files that are read from a source's table are those that it names, put in one by one. -/
theorem names_of_ofValue {value : Toml.Value} {entry : SourceEntry} (hdistinct : value.Distinct)
    (h : ofValue value = .ok entry) :
    ∃ files, List.Forall₂ Names (namedFiles value) files ∧ entry.write = SinkTable.ofFiles files := by
  rw [ofValue.eq_def] at h
  split at h
  next => exact names_of_ofFields (Toml.Value.distinct_table_iff.1 hdistinct) h
  next => exact names_of_ofItems h
  next => exact names_of_ofItems h
  · contradiction
  · contradiction

end SourceEntry

/-! ## Collectors -/

namespace CollectorFile

def sourceTables (es : Toml.Entries) : List Toml.Value :=
  match Toml.Entries.get? es "source" with
  | some (.array items) | some (.tables items) => items
  | _ => []

theorem takeField_other {p p' : Filled} {e : String × Toml.Value} (hname : e.1 ≠ "source")
    (h : takeField p e = .ok p') : p'.sources = p.sources := by
  rw [takeField.eq_def] at h
  split at h
  case h_1 => exact field_of_map h fun _ => rfl
  case h_2 => exact field_of_map h fun _ => rfl
  case h_3 => exact field_of_map h fun _ => rfl
  case h_4 => exact absurd rfl hname
  case h_5 => contradiction

theorem takeField_source {p p' : Filled} {v : Toml.Value} (h : takeField p ("source", v) = .ok p') :
    ∃ sources, (Toml.asSequence v >>= fun items => items.mapM SourceEntry.ofValue) = .ok sources
      ∧ p'.sources = some sources := by
  obtain ⟨items, hitems, h⟩ := ok_of_bind h
  obtain ⟨sources, hsources, h⟩ := ok_of_bind h
  cases h
  exact ⟨sources, bind_eq_ok_iff.2 ⟨items, hitems, hsources⟩, rfl⟩

theorem distinct_sourceTables {es : Toml.Entries} (h : es.Distinct) :
    ∀ value ∈ sourceTables es, value.Distinct := by
  rw [sourceTables]
  split
  next hget => exact Toml.Value.distinct_array_iff.1 (h.get? hget)
  next hget => exact Toml.Value.distinct_tables_iff.1 (h.get? hget)
  next => exact nofun

theorem forall₂_of_ofEntries {es : Toml.Entries} {file : CollectorFile} (hdistinct : es.Distinct)
    (h : ofEntries es = .ok file) :
    List.Forall₂ (fun value entry => SourceEntry.ofValue value = .ok entry) (sourceTables es)
      file.sources := by
  obtain ⟨p, hp, h⟩ := ok_of_bind h
  have hfile : file.sources = p.sources.getD [] := by
    split at h
    · contradiction
    next =>
      cases h
      rfl
  rw [hfile, sourceTables]
  cases hget : Toml.Entries.get? es "source" with
  | none =>
      rw [field_of_notMem takeField_other (Toml.Entries.get?_eq_none_iff.1 hget) hp]
      exact .nil
  | some v =>
      obtain ⟨sources, hread, hsources⟩ := field_of_mem takeField_other takeField_source
        hdistinct.keys (Toml.Entries.mem_of_get? hget) hp
      obtain ⟨items, hitems, hread⟩ := ok_of_bind hread
      rw [hsources]
      have hsame := forall₂_of_mapM hread
      rw [Toml.asSequence.eq_def] at hitems
      split at hitems
      next =>
        cases hitems
        exact hsame
      next =>
        cases hitems
        exact hsame
      · contradiction

end CollectorFile

/-! ## What a loaded source writes -/

def Source.Writes (s : Source) (k : StreamKey) (path : String) : Prop :=
  s.channels.find? k = some ⟨k, some path⟩

instance (s : Source) (k : StreamKey) (path : String) : Decidable (s.Writes k path) :=
  inferInstanceAs (Decidable (_ = _))

theorem SourceEntry.Describes.writes {r : Resolver} {entry : SourceEntry} {s : Source}
    {k : StreamKey} {path : String} (h : entry.Describes r s) (hdistinct : s.channels.Distinct)
    (hfile : entry.write.find? k = some path) : s.Writes k path := by
  obtain ⟨e, he, -⟩ := Option.map_eq_some_iff.1 hfile
  have hkey : e.1 = k := by simpa using List.find?_some he
  have haccepted : k ∈ entry.accept := by
    rw [← hkey]
    exact h.written e (List.mem_of_find?_eq_some he)
  rw [Source.Writes, hdistinct.find?_eq_some_iff, h.channels, ← hfile]
  exact ⟨List.mem_map.2 ⟨k, haccepted, rfl⟩, rfl⟩

/-- A source that is what its table asks for writes the stream on each line of the table, and to the
file on that line unless a line behind it names the same stream. -/
theorem SourceEntry.writes_of_ofValue {r : Resolver} {value : Toml.Value} {entry : SourceEntry}
    {s : Source} (hvalue : value.Distinct) (hread : ofValue value = .ok entry)
    (hdescribes : entry.Describes r s) (hdistinct : s.channels.Distinct)
    {before after : List (String × String)} {keyText path : String}
    (hfiles : namedFiles value = before ++ (keyText, path) :: after) :
    ∃ k, StreamKey.parse keyText = .ok k ∧ (∃ last, s.Writes k last)
      ∧ ((∀ line ∈ after, StreamKey.parse line.1 ≠ .ok k) → s.Writes k path) := by
  obtain ⟨files, hnames, hwrite⟩ := names_of_ofValue hvalue hread
  rw [hfiles] at hnames
  obtain ⟨front, ⟨k, _⟩, back, rfl, ⟨hparse, rfl⟩, hnamesAfter⟩ := split_of_forall₂ hnames
  dsimp only at hparse hwrite
  have hmem : (k, path) ∈ front ++ (k, path) :: back := List.mem_append_right front List.mem_cons_self
  refine ⟨k, hparse, ?_, ?_⟩
  · obtain ⟨last, hlast⟩ := SinkTable.exists_find?_ofFiles hmem
    rw [← hwrite] at hlast
    exact ⟨last, hdescribes.writes hdistinct hlast⟩
  · intro hothers
    -- a file behind this one is for the stream of its own line
    have hback : List.Forall₂ (fun line file => Names line file ∧ file.1 ≠ k) after back := by
      refine ((List.forall₂_and_left _ _).2 ⟨hothers, hnamesAfter⟩).imp ?_
      rintro line file ⟨hother, hline⟩
      refine ⟨hline, fun hk => hother ?_⟩
      rw [hline.1, hk]
    apply hdescribes.writes hdistinct
    rw [hwrite]
    exact SinkTable.find?_ofFiles (Registry.forall₂_and_iff.1 hback).2

namespace CollectorConfig

variable {r : Resolver}

/-- The stream on each line of a source's table is one that the source writes to a file, and to the
file on that line unless a line behind it names the same stream. -/
theorem writes_of_namedFiles {text : String} {config : CollectorConfig}
    (h : parse r text = .ok config) :
    ∃ es, Toml.parse text = some es ∧
      List.Forall₂
        (fun value s => ∀ before keyText path after,
          SourceEntry.namedFiles value = before ++ (keyText, path) :: after →
            ∃ k, StreamKey.parse keyText = .ok k ∧ (∃ last, s.Writes k last)
              ∧ ((∀ line ∈ after, StreamKey.parse line.1 ≠ .ok k) → s.Writes k path))
        (CollectorFile.sourceTables es) config.sources.entries := by
  obtain ⟨es, hes, ⟨file, hfile, hdescribes⟩, hvalid⟩ := parse_eq_ok_iff.1 h
  refine ⟨es, hes, ?_⟩
  have hdistinct := Toml.distinct_of_parse hes
  have hread := (List.forall₂_and_left _ _).2
    ⟨CollectorFile.distinct_sourceTables hdistinct, CollectorFile.forall₂_of_ofEntries hdistinct hfile⟩
  have hsources := Registry.forall₂_and_iff.2 ⟨hdescribes.sources, hvalid.channels⟩
  refine (forall₂_comp hread hsources).imp ?_
  rintro value s ⟨entry, ⟨hvalue, hentry⟩, hs, hchannels⟩ before keyText path after hfiles
  exact SourceEntry.writes_of_ofValue hvalue hentry hs hchannels hfiles

/-- Two lines of one table, the first with blanks in the text of its stream. -/
theorem writes_of_namedFiles_blanks :
    let text := "listen = \"127.0.0.1:2100\"\n"
      ++ "[[source]]\nhost = \"10.0.0.2\"\naccept = [\"cpu(0)\", \"mem\"]\n"
      ++ "[source.write]\n\"cpu( 0 )\" = \"cpu.rrd\"\nmem = \"mem.rrd\"\n"
    let cpu : StreamKey := ⟨.cpu, "0", by decide, by simp⟩
    ∃ config, parse .literal text = .ok config
      ∧ ∃ s ∈ config.sources.entries, s.Writes cpu "cpu.rrd" := by
  intro text cpu
  have hloads : (parse .literal text).toOption.isSome := by decide +kernel
  have hnamed : (Toml.parse text).map
      (fun es => (CollectorFile.sourceTables es).map SourceEntry.namedFiles)
        = some [[("cpu( 0 )", "cpu.rrd"), ("mem", "mem.rrd")]] := by decide +kernel
  have hcpu : StreamKey.parse "cpu( 0 )" = .ok cpu := ok_of_toOption (by decide +kernel)
  have hmem : StreamKey.parse "mem" = .ok ⟨.memory, "", by decide, by simp⟩ :=
    ok_of_toOption (by decide +kernel)
  obtain ⟨config, hconfig⟩ := Option.isSome_iff_exists.1 hloads
  have hconfig := ok_of_toOption hconfig
  obtain ⟨es, hes, hsources⟩ := writes_of_namedFiles hconfig
  rw [hes, Option.map_some, Option.some.injEq] at hnamed
  obtain ⟨value, rest, htables, hfiles, -⟩ := List.map_eq_cons_iff.1 hnamed
  refine ⟨config, hconfig, ?_⟩
  rw [htables] at hsources
  generalize config.sources.entries = sources at hsources ⊢
  obtain _ | ⟨hs, -⟩ := hsources
  obtain ⟨k, hk, -, hkept⟩ := hs [] "cpu( 0 )" "cpu.rrd" [("mem", "mem.rrd")] hfiles
  obtain rfl : cpu = k := Except.ok.inj (hcpu.symm.trans hk)
  refine ⟨_, List.mem_cons_self, hkept ?_⟩
  rw [List.forall_mem_singleton, hmem]
  exact fun heq => absurd (Except.ok.inj heq) (by decide)

/-- Not every line of a table is kept: of two that name one stream, the path of the earlier one is
dropped. -/
theorem not_all_namedFiles_kept :
    ¬∀ (r : Resolver) (text : String) (es : Toml.Entries) (config : CollectorConfig),
      Toml.parse text = some es → parse r text = .ok config →
        List.Forall₂
          (fun value s => ∀ file ∈ SourceEntry.namedFiles value,
            ∃ k, StreamKey.parse file.1 = .ok k ∧ s.Writes k file.2)
          (CollectorFile.sourceTables es) config.sources.entries := by
  intro hall
  let text := "listen = \"127.0.0.1:2100\"\n"
    ++ "[[source]]\nhost = \"10.0.0.2\"\naccept = [\"cpu(0)\", \"if(eth0)\"]\n"
    ++ "[source.write]\n\"cpu( 0 )\" = \"x\"\n\"cpu(0)\" = \"y\""
  let cpu : StreamKey := ⟨.cpu, "0", by decide, by simp⟩
  let channels : ChannelSet := ⟨[⟨cpu, some "y"⟩, ⟨⟨.interface64, "eth0", by decide, by simp⟩, none⟩]⟩
  let config : CollectorConfig := ⟨⟨.v4 ⟨127, 0, 0, 1⟩, 0, 2100⟩, none, 65536,
    ⟨[⟨"10.0.0.2", .v4 ⟨10, 0, 0, 2⟩, channels⟩]⟩⟩
  have hconfig : parse .literal text = .ok config := ok_of_toOption (by decide +kernel)
  have hnamed : (Toml.parse text).map
      (fun es => (CollectorFile.sourceTables es).map SourceEntry.namedFiles)
        = some [[("cpu( 0 )", "x"), ("cpu(0)", "y")]] := by decide +kernel
  have hcpu : StreamKey.parse "cpu( 0 )" = .ok cpu := ok_of_toOption (by decide +kernel)
  obtain ⟨es, hes, hnamed⟩ := Option.map_eq_some_iff.1 hnamed
  obtain ⟨value, rest, htables, hfiles, -⟩ := List.map_eq_cons_iff.1 hnamed
  have hsources := hall .literal text es config hes hconfig
  rw [htables] at hsources
  obtain _ | ⟨hs, -⟩ := hsources
  rw [hfiles] at hs
  obtain ⟨k, hk, hwrites⟩ := hs ("cpu( 0 )", "x") List.mem_cons_self
  obtain rfl : cpu = k := Except.ok.inj (hcpu.symm.trans hk)
  -- the source writes the stream to the other file
  exact absurd hwrites (by decide)

end CollectorConfig
end Telemetry
