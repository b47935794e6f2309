/-!
# Registries

A registry keeps entries under keys, in the order they came.  An entry whose key is taken is
reported and the one that holds the key stays.
-/

namespace Telemetry

/-- Entries that are kept under a key. -/
class Keyed (α : Type) (κ : outParam Type) where
  key : α → κ
  /-- the key of an entry as it is written in reports -/
  keyText : α → String
  /-- what an entry is called in reports -/
  noun : String

/-- A second entry under a key that is taken. -/
structure Duplicate where
  noun : String
  key : String
  deriving DecidableEq, Repr

def Duplicate.message (d : Duplicate) : String :=
  s!"Duplicate {d.noun} {d.key}"

/-- Entries under distinct keys, in the order they came. -/
structure Registry (α : Type) where
  entries : List α
  deriving DecidableEq, Repr

namespace Registry

variable {α κ : Type}

def empty : Registry α :=
  ⟨[]⟩

def size (r : Registry α) : Nat :=
  r.entries.length

variable [Keyed α κ] [DecidableEq κ]

def find? (r : Registry α) (k : κ) : Option α :=
  r.entries.find? fun e => Keyed.key e = k

/-- Add an entry, unless its key is taken. -/
def insert (r : Registry α) (e : α) : Except Duplicate (Registry α) :=
  if (r.find? (Keyed.key e)).isSome then
    .error ⟨Keyed.noun α, Keyed.keyText e⟩
  else
    .ok ⟨r.entries ++ [e]⟩

/-- Add entries in order, up to the first whose key is taken. -/
def insertAll (r : Registry α) (es : List α) : Except Duplicate (Registry α) :=
  es.foldlM insert r

/-- Exchange the entry that came last. -/
def replaceLast (r : Registry α) (e : α) : Registry α :=
  ⟨r.entries.dropLast ++ [e]⟩

end Registry
end Telemetry
