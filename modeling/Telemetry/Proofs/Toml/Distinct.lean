import Mathlib.Data.List.Nodup
import Telemetry.Toml.Document

/-!
# Distinct — a document defines no key twice

`Entries.Distinct` says of the entries of a table that no key comes twice, neither in the table nor in
any table within it.  Adding a key keeps it (`Entries.Distinct.insert`), and so does changing the table
that a header names (`Entries.Distinct.within`).  A draft is made of nothing else, so it holds of every
document that is read (`distinct_of_parse`).
-/

namespace Telemetry
namespace Toml

/-- No table within a value has a key twice. -/
inductive Value.Distinct : Value → Prop where
  | string (s : String) : Distinct (.string s)
  | integer (n : Int) : Distinct (.integer n)
  | float (x : Float) : Distinct (.float x)
  | boolean (b : Bool) : Distinct (.boolean b)
  | datetime : Distinct .datetime
  | array {items : List Value} : (∀ v ∈ items, Distinct v) → Distinct (.array items)
  | table {form : TableForm} {es : List (String × Value)} :
      (es.map Prod.fst).Nodup → (∀ e ∈ es, Distinct e.2) → Distinct (.table form es)
  | tables {items : List Value} : (∀ v ∈ items, Distinct v) → Distinct (.tables items)

structure Entries.Distinct (es : Entries) : Prop where
  keys : (es.map Prod.fst).Nodup
  values : ∀ e ∈ es, e.2.Distinct

namespace Value

theorem distinct_table_iff {form : TableForm} {es : Entries} :
    (table form es).Distinct ↔ Entries.Distinct es := by
  constructor
  · rintro (_ | _)
    next hkeys hvalues => exact ⟨hkeys, hvalues⟩
  · exact fun h => .table h.keys h.values

theorem distinct_array_iff {items : List Value} :
    (array items).Distinct ↔ ∀ v ∈ items, v.Distinct := by
  constructor
  · rintro (_ | _)
    assumption
  · exact .array

theorem distinct_tables_iff {items : List Value} :
    (tables items).Distinct ↔ ∀ v ∈ items, v.Distinct := by
  constructor
  · rintro (_ | _)
    assumption
  · exact .tables

end Value

/-! ## Entries -/

namespace Entries

variable {es es' : Entries} {key : String} {v : Value}

theorem get?_eq_none_iff : get? es key = none ↔ key ∉ es.map Prod.fst := by
  rw [get?, Option.map_eq_none_iff, List.find?_eq_none, List.mem_map, not_exists]
  simp only [beq_iff_eq, not_and]

theorem mem_of_get? (h : get? es key = some v) : (key, v) ∈ es := by
  obtain ⟨e, he, rfl⟩ := Option.map_eq_some_iff.1 h
  have hkey : e.1 = key := by simpa using List.find?_some he
  rw [← hkey]
  exact List.mem_of_find?_eq_some he

theorem keys_put : (put es key v).map Prod.fst
    = if key ∈ es.map Prod.fst then es.map Prod.fst else es.map Prod.fst ++ [key] := by
  induction es with
  | nil => rfl
  | cons e es ih =>
      obtain ⟨k, old⟩ := e
      by_cases hk : k = key
      · simp [put, hk]
      · have hk' : key ≠ k := Ne.symm hk
        simp only [put, beq_iff_eq, hk, if_false, List.map_cons, ih, List.mem_cons, hk', false_or]
        split <;> rfl

theorem mem_put {e : String × Value} (h : e ∈ put es key v) : e ∈ es ∨ e = (key, v) := by
  induction es with
  | nil => exact .inr (List.mem_singleton.1 h)
  | cons x es ih =>
      obtain ⟨k, old⟩ := x
      rw [put] at h
      split at h
      next hk =>
        rcases List.mem_cons.1 h with rfl | h
        · rw [beq_iff_eq.1 hk]
          exact .inr rfl
        · exact .inl (List.mem_cons_of_mem _ h)
      next =>
        rcases List.mem_cons.1 h with rfl | h
        · exact .inl List.mem_cons_self
        · exact (ih h).imp_left (List.mem_cons_of_mem _)

theorem distinct_nil : Distinct [] :=
  ⟨List.nodup_nil, nofun⟩

namespace Distinct

theorem get? (h : Distinct es) (hget : Entries.get? es key = some v) : v.Distinct :=
  h.values _ (mem_of_get? hget)

theorem concat (h : Distinct es) (hfree : Entries.get? es key = none) (hv : v.Distinct) :
    Distinct (es ++ [(key, v)]) where
  keys := by
    rw [List.map_append, List.map_singleton, ← List.concat_eq_append]
    exact h.keys.concat (get?_eq_none_iff.1 hfree)
  values := List.forall_mem_append.2 ⟨h.values, List.forall_mem_singleton.2 hv⟩

theorem erase (h : Distinct es) (key : String) : Distinct (Entries.erase es key) where
  keys := (List.filter_sublist.map Prod.fst).nodup h.keys
  values := fun e he => h.values e (List.mem_filter.1 he).1

theorem put (h : Distinct es) (hv : v.Distinct) : Distinct (Entries.put es key v) where
  keys := by
    rw [keys_put]
    split
    next => exact h.keys
    next hfree =>
      rw [← List.concat_eq_append]
      exact h.keys.concat hfree
  values := fun e he => by
    rcases mem_put he with he | rfl
    · exact h.values e he
    · exact hv

end Distinct

/-! ## Changes to a table -/

theorem distinct_of_getLast? {items : List Value} {form : TableForm}
    (h : (Value.tables items).Distinct) (hlast : items.getLast? = some (.table form es)) :
    Distinct es :=
  Value.distinct_table_iff.1 (Value.distinct_tables_iff.1 h _ (List.mem_of_getLast? hlast))

namespace Distinct

variable {form : TableForm} {old new : Entries}

/-- A table within may change to one that has no key twice either. -/
theorem put_table (h : Distinct es) (hget : Entries.get? es key = some (.table form old))
    (hchange : Distinct old → Distinct new) : Distinct (Entries.put es key (.table form new)) :=
  h.put (Value.distinct_table_iff.2 (hchange (Value.distinct_table_iff.1 (h.get? hget))))

/-- So may the last of the tables under a repeated header. -/
theorem put_last {items : List Value} (h : Distinct es)
    (hget : Entries.get? es key = some (.tables items))
    (hlast : items.getLast? = some (.table form old)) (hchange : Distinct old → Distinct new) :
    Distinct (Entries.put es key (.tables (items.dropLast ++ [.table form new]))) := by
  have hitems := h.get? hget
  have hnew : (Value.table form new).Distinct :=
    Value.distinct_table_iff.2 (hchange (distinct_of_getLast? hitems hlast))
  apply h.put
  rw [Value.distinct_tables_iff] at hitems ⊢
  exact List.forall_mem_append.2
    ⟨fun w hw => hitems w (List.dropLast_subset items hw), List.forall_mem_singleton.2 hnew⟩

/-- Adding a key, dotted or not, defines none twice. -/
theorem insert {parents : List String} {dotted : Bool} (h : Distinct es)
    (hv : v.Distinct) (hinsert : Entries.insert es form key v parents dotted = some es') :
    Distinct es' := by
  induction parents generalizing es es' form dotted with
  | nil =>
      rw [Entries.insert] at hinsert
      split at hinsert
      · contradiction
      split at hinsert
      · contradiction
      next hfree =>
      cases hinsert
      exact h.concat (by simpa using hfree) hv
  | cons p ps ih =>
      rw [Entries.insert.eq_def] at hinsert
      dsimp only at hinsert
      split at hinsert
      -- the parent is new, and holds the one key
      · obtain ⟨inner, hinner, rfl⟩ := Option.map_eq_some_iff.1 hinsert
        exact h.put (Value.distinct_table_iff.2 (ih distinct_nil hinner))
      · contradiction
      · contradiction
      next hget =>
        obtain ⟨inner, hinner, rfl⟩ := Option.map_eq_some_iff.1 hinsert
        exact h.put_table hget fun hold => ih hold hinner
      next hget =>
        split at hinsert
        next hlast =>
          obtain ⟨inner, hinner, rfl⟩ := Option.map_eq_some_iff.1 hinsert
          exact h.put_last hget hlast fun hold => ih hold hinner
        · contradiction
      · contradiction

/-- Changing the table that a header names defines no key twice, if the change does not. -/
theorem within {change : Entries → Option Entries} {path : List String} (h : Distinct es)
    (hchange : ∀ inner inner', Distinct inner → change inner = some inner' → Distinct inner')
    (hwithin : Entries.within es change path = some es') : Distinct es' := by
  induction path generalizing es es' with
  | nil => exact hchange _ _ h hwithin
  | cons p ps ih =>
      rw [Entries.within.eq_def] at hwithin
      dsimp only at hwithin
      split at hwithin
      next hfree =>
        obtain ⟨inner, hinner, rfl⟩ := Option.map_eq_some_iff.1 hwithin
        exact h.concat hfree (Value.distinct_table_iff.2 (ih distinct_nil hinner))
      · contradiction
      next hget =>
        obtain ⟨inner, hinner, rfl⟩ := Option.map_eq_some_iff.1 hwithin
        exact h.put_table hget fun hold => ih hold hinner
      next hget =>
        split at hwithin
        next hlast =>
          obtain ⟨inner, hinner, rfl⟩ := Option.map_eq_some_iff.1 hwithin
          exact h.put_last hget hlast fun hold => ih hold hinner
        · contradiction
      · contradiction

theorem at? {path : List String} (h : Distinct es) (hat : Entries.at? es path = some es') :
    Distinct es' := by
  induction path generalizing es with
  | nil =>
      cases hat
      exact h
  | cons p ps ih =>
      rw [Entries.at?] at hat
      split at hat
      next hget => exact ih (Value.distinct_table_iff.1 (h.get? hget)) hat
      next hget =>
        split at hat
        next hlast => exact ih (distinct_of_getLast? (h.get? hget) hlast) hat
        · contradiction
      · contradiction

end Distinct
end Entries

/-! ## Drafts -/

structure Draft.Distinct (d : Draft) : Prop where
  root : Entries.Distinct d.root
  entries : Entries.Distinct d.entries

namespace Draft.Distinct

variable {d d' : Draft} {es : Entries} {parents : List String} {k : String} {v : Value}

theorem close (h : d.Distinct) (hclose : d.close = some es) : Entries.Distinct es := by
  rw [Draft.close.eq_def] at hclose
  split at hclose
  next =>
    cases hclose
    exact h.entries
  next parents k repeated =>
    have htable {form : TableForm} : (Value.table form d.entries).Distinct :=
      Value.distinct_table_iff.2 h.entries
    refine h.root.within ?_ hclose
    intro parent parent' hparent hchange
    split at hchange
    -- under a repeated header the table joins those before it, under another one its key is free
    next =>
      split at hchange
      next hget =>
        cases hchange
        have hitems := Value.distinct_tables_iff.1 (hparent.get? hget)
        exact hparent.put (Value.distinct_tables_iff.2
          (List.forall_mem_append.2 ⟨hitems, List.forall_mem_singleton.2 htable⟩))
      · contradiction
    next =>
      split at hchange
      · contradiction
      next hfree =>
        cases hchange
        exact hparent.concat (by simpa using hfree) htable

theorem openTable (h : d.Distinct) (hopen : d.openTable parents k = some d') : d'.Distinct := by
  rw [Draft.openTable] at hopen
  obtain ⟨closed, hclosed, hopen⟩ := Option.bind_eq_some_iff.1 hopen
  obtain ⟨root, hroot, hopen⟩ := Option.bind_eq_some_iff.1 hopen
  obtain ⟨parent, hparent, hopen⟩ := Option.bind_eq_some_iff.1 hopen
  have hdistinct : Entries.Distinct root := (h.close hclosed).within (by simp) hroot
  split at hopen
  next =>
    cases hopen
    exact ⟨hdistinct, Entries.distinct_nil⟩
  next inner hget =>
    obtain ⟨taken, htaken, hopen⟩ := Option.bind_eq_some_iff.1 hopen
    cases hopen
    have hinner := (hdistinct.at? hparent).get? hget
    refine ⟨hdistinct.within ?_ htaken, Value.distinct_table_iff.1 hinner⟩
    rintro parent - hold ⟨⟩
    exact hold.erase k
  · contradiction

theorem openRepeated (h : d.Distinct) (hopen : d.openRepeated parents k = some d') :
    d'.Distinct := by
  rw [Draft.openRepeated] at hopen
  obtain ⟨closed, hclosed, hopen⟩ := Option.bind_eq_some_iff.1 hopen
  obtain ⟨root, hroot, hopen⟩ := Option.bind_eq_some_iff.1 hopen
  cases hopen
  refine ⟨(h.close hclosed).within ?_ hroot, Entries.distinct_nil⟩
  intro parent parent' hparent hchange
  split at hchange
  next hfree =>
    cases hchange
    exact hparent.concat hfree (Value.distinct_tables_iff.2 nofun)
  next =>
    cases hchange
    exact hparent
  · contradiction

theorem add (h : d.Distinct) (hv : v.Distinct) (hadd : d.add parents k v = some d') :
    d'.Distinct := by
  rw [Draft.add] at hadd
  obtain ⟨entries, hentries, hadd⟩ := Option.bind_eq_some_iff.1 hadd
  cases hadd
  exact ⟨h.root, h.entries.insert hv hentries⟩

end Draft.Distinct

/-! ## Values that are read -/

def ReadsDistinct (item : Scan Value) : Prop :=
  ∀ cs v rest, item cs = some (v, rest) → v.Distinct

theorem readsDistinct_number : ReadsDistinct number := by
  intro cs v rest h
  rw [number.eq_def] at h
  split at h
  next =>
    cases h
    exact .datetime
  next =>
    split at h
    next x _ _ =>
      cases h
      exact .float x
    next =>
      obtain ⟨⟨n, _⟩, -, hn⟩ := Option.map_eq_some_iff.1 h
      cases hn
      exact .integer n

theorem readsDistinct_scalar : ReadsDistinct scalar := by
  intro cs v rest h
  rw [scalar.eq_def] at h
  split at h
  next =>
    cases h
    exact .boolean true
  next =>
    cases h
    exact .boolean false
  next =>
    obtain ⟨⟨s, _⟩, -, hs⟩ := Option.map_eq_some_iff.1 h
    cases hs
    exact .string s
  next =>
    obtain ⟨⟨s, _⟩, -, hs⟩ := Option.map_eq_some_iff.1 h
    cases hs
    exact .string s
  next => exact readsDistinct_number _ _ _ h

namespace ReadsDistinct

variable {item : Scan Value}

theorem arrayItems (h : ReadsDistinct item) {fuel : Nat} {cs rest : List Char} {vs : List Value}
    (hitems : Toml.arrayItems item fuel cs = some (vs, rest)) : ∀ v ∈ vs, v.Distinct := by
  induction fuel generalizing cs vs with
  | zero => contradiction
  | succ fuel ih =>
      rw [Toml.arrayItems] at hitems
      split at hitems
      next =>
        cases hitems
        exact nofun
      next =>
        obtain ⟨⟨v, after⟩, hv, hitems⟩ := Option.bind_eq_some_iff.1 hitems
        dsimp only at hitems
        split at hitems
        next =>
          obtain ⟨⟨ws, after'⟩, hws, hitems⟩ := Option.bind_eq_some_iff.1 hitems
          cases hitems
          exact List.forall_mem_cons.2 ⟨h _ _ _ hv, ih hws⟩
        next =>
          cases hitems
          exact List.forall_mem_singleton.2 (h _ _ _ hv)
        · contradiction

theorem pair (h : ReadsDistinct item) {cs rest : List Char} {parents : List String} {k : String}
    {v : Value} (hpair : Toml.pair item cs = some ((parents, k, v), rest)) : v.Distinct := by
  rw [Toml.pair] at hpair
  obtain ⟨⟨⟨_, _⟩, after⟩, -, hpair⟩ := Option.bind_eq_some_iff.1 hpair
  dsimp only at hpair
  split at hpair
  next =>
    obtain ⟨⟨w, after'⟩, hw, hpair⟩ := Option.bind_eq_some_iff.1 hpair
    cases hpair
    exact h _ _ _ hw
  · contradiction

theorem inlinePairs (h : ReadsDistinct item) {fuel : Nat} {cs rest : List Char}
    {entries es : Entries} (hentries : entries.Distinct)
    (hpairs : Toml.inlinePairs item entries fuel cs = some (es, rest)) : es.Distinct := by
  induction fuel generalizing entries cs with
  | zero => contradiction
  | succ fuel ih =>
      rw [Toml.inlinePairs] at hpairs
      obtain ⟨⟨⟨parents, k, v⟩, after⟩, hpair, hpairs⟩ := Option.bind_eq_some_iff.1 hpairs
      obtain ⟨added, hadded, hpairs⟩ := Option.bind_eq_some_iff.1 hpairs
      have hdistinct := hentries.insert (h.pair hpair) hadded
      split at hpairs
      next => exact ih hdistinct hpairs
      next =>
        cases hpairs
        exact hdistinct
      · contradiction

theorem inlineTable (h : ReadsDistinct item) {cs rest : List Char} {es : Entries}
    (htable : Toml.inlineTable item cs = some (es, rest)) : es.Distinct := by
  rw [Toml.inlineTable.eq_def] at htable
  split at htable
  next =>
    cases htable
    exact Entries.distinct_nil
  next => exact h.inlinePairs Entries.distinct_nil htable

end ReadsDistinct

theorem readsDistinct_value (depth : Nat) : ReadsDistinct (value depth) := by
  induction depth with
  | zero => exact readsDistinct_scalar
  | succ depth ih =>
      intro cs v rest h
      rw [value.eq_def] at h
      dsimp only at h
      split at h
      next =>
        obtain ⟨⟨vs, _⟩, hvs, heq⟩ := Option.map_eq_some_iff.1 h
        cases heq
        exact .array (ih.arrayItems hvs)
      next =>
        obtain ⟨⟨es, _⟩, hes, heq⟩ := Option.map_eq_some_iff.1 h
        cases heq
        exact Value.distinct_table_iff.2 (ih.inlineTable hes)
      next => exact readsDistinct_scalar _ _ _ h

/-! ## Documents -/

theorem Draft.Distinct.headerLine {d d' : Draft} {cs rest : List Char} (h : d.Distinct)
    (hline : Toml.headerLine d cs = some (d', rest)) : d'.Distinct := by
  rw [Toml.headerLine.eq_def] at hline
  split at hline
  next =>
    obtain ⟨⟨⟨parents, k⟩, after⟩, -, hline⟩ := Option.bind_eq_some_iff.1 hline
    dsimp only at hline
    split at hline
    next =>
      obtain ⟨opened, hopen, hline⟩ := Option.bind_eq_some_iff.1 hline
      cases hline
      exact h.openRepeated hopen
    · contradiction
  next =>
    obtain ⟨⟨⟨parents, k⟩, after⟩, -, hline⟩ := Option.bind_eq_some_iff.1 hline
    dsimp only at hline
    split at hline
    next =>
      obtain ⟨opened, hopen, hline⟩ := Option.bind_eq_some_iff.1 hline
      cases hline
      exact h.openTable hopen
    · contradiction
  · contradiction

theorem distinct_of_document {d : Draft} {fuel : Nat} {cs : List Char} {es : Entries}
    (h : d.Distinct) (hdocument : document d fuel cs = some es) : es.Distinct := by
  induction fuel generalizing d cs with
  | zero => contradiction
  | succ fuel ih =>
      rw [document] at hdocument
      split at hdocument
      next => exact h.close hdocument
      next =>
        obtain ⟨after, -, hdocument⟩ := Option.bind_eq_some_iff.1 hdocument
        exact ih h hdocument
      next =>
        obtain ⟨⟨opened, after⟩, hopen, hdocument⟩ := Option.bind_eq_some_iff.1 hdocument
        obtain ⟨after', -, hdocument⟩ := Option.bind_eq_some_iff.1 hdocument
        exact ih (h.headerLine hopen) hdocument
      next =>
        split at hdocument
        next => exact ih h hdocument
        next =>
          obtain ⟨⟨⟨parents, k, v⟩, after⟩, hpair, hdocument⟩ :=
            Option.bind_eq_some_iff.1 hdocument
          obtain ⟨added, hadded, hdocument⟩ := Option.bind_eq_some_iff.1 hdocument
          obtain ⟨after', -, hdocument⟩ := Option.bind_eq_some_iff.1 hdocument
          have hv := (readsDistinct_value _).pair hpair
          exact ih (h.add hv hadded) hdocument

/-- A document that is read defines no key twice, neither at its top nor in any table within it. -/
theorem distinct_of_parse {s : String} {es : Entries} (h : parse s = some es) : es.Distinct := by
  have hempty : Draft.Distinct ⟨[], [], none⟩ := ⟨Entries.distinct_nil, Entries.distinct_nil⟩
  exact distinct_of_document hempty h

end Toml
end Telemetry
