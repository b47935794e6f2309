import Telemetry.Toml.Scalar

/-!
# TOML documents

Keys, arrays and inline tables, and the lines of a document.  `Toml.parse` gives the entries of a
document, or nothing if the text breaks the grammar or defines a key or a table twice.  Values may
nest and keys may be dotted less than `nestingLimit` deep.
-/

namespace Telemetry
namespace Toml

/-- Depth at which arrays, inline tables and dotted keys are refused. -/
def nestingLimit : Nat := 80

/-! ## Keys -/

def isBare (c : Char) : Bool :=
  c.isAlphanum || c == '-' || c == '_'

/-- A bare key, or one in quotation marks or apostrophes. -/
def simpleKey (cs : List Char) : Option (String × List Char) :=
  match cs with
  | '"' :: rest => (basicString rest.length rest).map fun (t, r) => (String.ofList t, r)
  | '\'' :: rest => (literalString rest).map fun (t, r) => (String.ofList t, r)
  | _ =>
      let bare := cs.takeWhile isBare
      if bare.isEmpty then none else some (String.ofList bare, cs.drop bare.length)

/-- Keys separated by points, with blanks around each. -/
def keyParts : (fuel : Nat) → Scan (List String)
  | 0, _ => none
  | fuel + 1, cs => do
      let (k, rest) ← simpleKey (skipSpaces cs)
      match skipSpaces rest with
      | '.' :: rest => do
          let (ks, rest) ← keyParts fuel rest
          return (k :: ks, rest)
      | rest => return ([k], rest)

/-- A key as its parents and its last part. -/
def key (cs : List Char) : Option ((List String × String) × List Char) := do
  let (ks, rest) ← keyParts cs.length cs
  if ks.length < nestingLimit then
    let last ← ks.getLast?
    return ((ks.dropLast, last), rest)
  else none

/-! ## Arrays and inline tables -/

def arrayItems (item : Scan Value) : (fuel : Nat) → Scan (List Value)
  | 0, _ => none
  | fuel + 1, cs =>
      match skipBlank cs.length cs with
      -- an empty array, or a comma behind the last item
      | ']' :: rest => some ([], rest)
      | cs => do
          let (v, rest) ← item cs
          match skipBlank rest.length rest with
          | ',' :: rest => do
              let (vs, rest) ← arrayItems item fuel rest
              return (v :: vs, rest)
          | ']' :: rest => return ([v], rest)
          | _ => none

/-- `key = value` with the blanks behind it. -/
def pair (item : Scan Value) (cs : List Char) :
    Option ((List String × String × Value) × List Char) := do
  let ((parents, k), rest) ← key cs
  match rest with
  | '=' :: rest => do
      let (v, rest) ← item (skipSpaces rest)
      return ((parents, k, v), skipSpaces rest)
  | _ => none

def inlinePairs (item : Scan Value) (entries : Entries) : (fuel : Nat) → Scan Entries
  | 0, _ => none
  | fuel + 1, cs => do
      let ((parents, k, v), rest) ← pair item cs
      let entries ← Entries.insert entries .inline k v parents false
      match rest with
      | ',' :: rest => inlinePairs item entries fuel rest
      | '\x7d' :: rest => return (entries, rest)
      | _ => none

/-- An inline table, read after its opening brace. -/
def inlineTable (item : Scan Value) (cs : List Char) : Option (Entries × List Char) :=
  match skipSpaces cs with
  -- no pairs at all; behind a comma a pair must follow
  | '\x7d' :: rest => some ([], rest)
  | _ => inlinePairs item [] cs.length cs

/-- A value that nests at most `depth` deep. -/
def value : (depth : Nat) → Scan Value
  | 0, cs => scalar cs
  | depth + 1, cs =>
      match cs with
      | '[' :: rest =>
          (arrayItems (value depth) rest.length rest).map fun (vs, rest) => (.array vs, rest)
      | '\x7b' :: rest =>
          (inlineTable (value depth) rest).map fun (es, rest) => (.table .inline es, rest)
      | _ => scalar cs

/-! ## Documents -/

/-- The document read so far: its finished tables, and the table that is open. -/
structure Draft where
  root : Entries
  entries : Entries
  /-- path of the open table and whether its header is a repeated one; none for the document -/
  header : Option (List String × String × Bool)

namespace Draft

/-- Put the open table into its place. -/
def close (d : Draft) : Option Entries :=
  match d.header with
  | none => some d.entries
  | some (parents, k, repeated) =>
      Entries.within d.root
        (fun parent =>
          -- the parent held an empty place for repeated tables since the header was read
          if repeated then
            match Entries.get? parent k with
            | some (.tables items) =>
                some (Entries.put parent k (.tables (items ++ [.table .headed d.entries])))
            | _ => none
          else if (Entries.get? parent k).isSome then none
          else some (parent ++ [(k, .table .headed d.entries)]))
        parents

/-- Open the table of a header.  An implied table opens again with its entries. -/
def openTable (d : Draft) (parents : List String) (k : String) : Option Draft := do
  let closed ← d.close
  let root ← Entries.within closed some parents
  let parent ← Entries.at? root parents
  match Entries.get? parent k with
  | none => return ⟨root, [], some (parents, k, false)⟩
  -- take the implied table out; it comes back with its new entries on closing
  | some (.table .implied inner) =>
      let root ← Entries.within root (fun parent => some (Entries.erase parent k)) parents
      return ⟨root, inner, some (parents, k, false)⟩
  | some _ => none

def openRepeated (d : Draft) (parents : List String) (k : String) : Option Draft := do
  let closed ← d.close
  let root ← Entries.within closed
    (fun parent =>
      match Entries.get? parent k with
      | none => some (parent ++ [(k, .tables [])])
      | some (.tables _) => some parent
      | some _ => none)
    parents
  return ⟨root, [], some (parents, k, true)⟩

def add (d : Draft) (parents : List String) (k : String) (v : Value) : Option Draft := do
  let entries ← Entries.insert d.entries .headed k v parents false
  return { d with entries := entries }

end Draft

/-- The end of a line, after blanks and a comment. -/
def lineEnd (cs : List Char) : Option (List Char) :=
  match skipComment (skipSpaces cs) with
  | [] => some []
  | cs => newline cs

/-- A header, `[path]` or `[[path]]`, and the draft with its table open. -/
def headerLine (d : Draft) (cs : List Char) : Option (Draft × List Char) :=
  match cs with
  | '[' :: '[' :: rest => do
      let ((parents, k), rest) ← key rest
      match rest with
      | ']' :: ']' :: rest => do
          let d ← d.openRepeated parents k
          return (d, rest)
      | _ => none
  | '[' :: rest => do
      let ((parents, k), rest) ← key rest
      match rest with
      | ']' :: rest => do
          let d ← d.openTable parents k
          return (d, rest)
      | _ => none
  | _ => none

def document (d : Draft) : (fuel : Nat) → List Char → Option Entries
  | 0, _ => none
  | fuel + 1, cs =>
      match skipSpaces cs with
      | [] => d.close
      | '#' :: rest => do
          let rest ← lineEnd ('#' :: rest)
          document d fuel rest
      | '[' :: rest => do
          let (d, rest) ← headerLine d ('[' :: rest)
          let rest ← lineEnd rest
          document d fuel rest
      | cs =>
          match newline cs with
          | some rest => document d fuel rest
          | none => do
              let ((parents, k, v), rest) ← pair (value (nestingLimit - 1)) cs
              let d ← d.add parents k v
              let rest ← lineEnd rest
              document d fuel rest

/-- The entries of a document; a byte order mark in front is dropped. -/
def parse (s : String) : Option Entries :=
  let cs := match s.toList with
    | '\uFEFF' :: cs => cs
    | cs => cs
  document ⟨[], [], none⟩ (cs.length + 1) cs

end Toml
end Telemetry
