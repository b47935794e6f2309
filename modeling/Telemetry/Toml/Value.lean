/-!
# TOML values and tables

`Toml.Value` is the value type of the format.  A table remembers how it came to be, because that
decides which later lines may still add to it: `Toml.Entries.insert` adds a key, dotted or not, and
`Toml.Entries.within` reaches the table that a header names.  Entries keep the order of the text.
-/

namespace Telemetry
namespace Toml

/-- How a table came to be. -/
inductive TableForm where
  /-- by a header of its own, or as the whole document -/
  | headed
  /-- as a parent in the header of another table -/
  | implied
  /-- as a parent in a dotted key -/
  | dotted
  /-- between braces -/
  | inline
  deriving DecidableEq, Repr

inductive Value where
  | string (s : String)
  | integer (n : Int)
  | float (x : Float)
  | boolean (b : Bool)
  | datetime
  | array (items : List Value)
  | table (form : TableForm) (entries : List (String × Value))
  /-- tables under a repeated header, each a `table` -/
  | tables (items : List Value)
  deriving Inhabited

/-- Keys and values of a table, in the order of the text. -/
abbrev Entries := List (String × Value)

namespace Entries

def get? (es : Entries) (key : String) : Option Value :=
  (List.find? (·.1 == key) es).map (·.2)

/-- Give an existing key a new value in its place, or put a new key at the end. -/
def put (es : Entries) (key : String) (v : Value) : Entries :=
  match es with
  | [] => [(key, v)]
  | (k, old) :: rest => if k == key then (k, v) :: rest else (k, old) :: put rest key v

def erase (es : Entries) (key : String) : Entries :=
  List.filter (·.1 != key) es

/-! ## Adding a key -/

/-- Add `parents.key = value`; the table holding the entries has the given form.

A table that a dotted key passes through must not have a header of its own or stand between braces,
and a table that receives a dotted key must itself have come from one. -/
def insert (es : Entries) (form : TableForm) (key : String) (v : Value) :
    (parents : List String) → (dotted : Bool) → Option Entries
  | [], dotted =>
      -- a dotted key ends only in a table that dotted keys made
      if dotted && form != .dotted then none
      else if (get? es key).isSome then none
      else some (es ++ [(key, v)])
  | p :: ps, _ =>
      match get? es p with
      | none => (insert [] .dotted key v ps true).map fun inner => put es p (.table .dotted inner)
      -- a header closed that table to dotted keys, braces closed it for good
      | some (.table .headed _) => none
      | some (.table .inline _) => none
      | some (.table form' inner) =>
          (insert inner form' key v ps true).map fun inner => put es p (.table form' inner)
      | some (.tables items) =>
          match items.getLast? with
          -- the last table under a repeated header receives the key
          | some (.table form' inner) =>
              (insert inner form' key v ps true).map fun inner =>
                put es p (.tables (items.dropLast ++ [.table form' inner]))
          | _ => none
      | some _ => none

/-! ## Reaching a table -/

/-- Change the entries of the table that a path of headers names; missing tables on the way are
implied, and a repeated header stands for its last table. -/
def within (es : Entries) (change : Entries → Option Entries) : (path : List String) → Option Entries
  | [] => change es
  | p :: ps =>
      match get? es p with
      -- nothing there yet: the table is implied by the header
      | none => (within [] change ps).map fun inner => es ++ [(p, .table .implied inner)]
      | some (.table .inline _) => none
      | some (.table form inner) =>
          (within inner change ps).map fun inner => put es p (.table form inner)
      -- a repeated header stands for the table it opened last
      | some (.tables items) =>
          match items.getLast? with
          | some (.table form inner) =>
              (within inner change ps).map fun inner =>
                put es p (.tables (items.dropLast ++ [.table form inner]))
          | _ => none
      | some _ => none

def at? (es : Entries) : (path : List String) → Option Entries
  | [] => some es
  | p :: ps =>
      match get? es p with
      | some (.table _ inner) => at? inner ps
      | some (.tables items) =>
          match items.getLast? with
          | some (.table _ inner) => at? inner ps
          | _ => none
      | _ => none

end Entries
end Toml
end Telemetry
