import Telemetry.Files.Path

/-!
# File trees

Folders, files and devices under one root, and the folder that relative paths start from.  A path is
followed part by part, so a folder must exist even if the next part leads out of it again.
-/

namespace Telemetry

/-- A device that takes every write, or refuses every write. -/
inductive Device where
  | sink
  | full
  deriving DecidableEq, Repr

inductive Node where
  | folder
  | file (content : List UInt8)
  | device (d : Device)
  deriving DecidableEq, Repr

/-- Where a node is, part by part from the root. -/
abbrev Location := List String

structure Files where
  nodes : List (Location × Node)
  here : Location
  deriving DecidableEq

namespace Files

/-- A tree with an empty folder to work in. -/
def fresh : Files where
  nodes :=
    [(["dev"], .folder), (["dev", "shm"], .folder), (["dev", "full"], .device .full),
      (["dev", "null"], .device .sink), (["dev", "zero"], .device .sink), (["tmp"], .folder),
      (["tmp", "work"], .folder)]
  here := ["tmp", "work"]

/-- A tree with a working folder, and the folders above it. -/
def workingIn (here : Location) : Files where
  nodes := fresh.nodes ++ (List.range here.length).map fun n => (here.take (n + 1), .folder)
  here := here

def pathOf (l : Location) : FilePath :=
  "/" ++ String.intercalate "/" l

/-- The node at a location; the root is always there. -/
def node? (fs : Files) (l : Location) : Option Node :=
  if l = [] then some .folder
  else (fs.nodes.find? fun e => e.1 = l).map (·.2)

def put (fs : Files) (l : Location) (n : Node) : Files :=
  { fs with nodes := fs.nodes.filter (fun e => e.1 ≠ l) ++ [(l, n)] }

def erase (fs : Files) (l : Location) : Files :=
  { fs with nodes := fs.nodes.filter fun e => e.1 ≠ l }

/-! ## Following paths -/

/-- Bytes of the longest part of a path. -/
def longestPart : Nat := 255

/-- Bytes of the shortest path that is too long. -/
def pathLimit : Nat := 4096

/-- What a part of a path leads to, whether or not it is there. -/
def enter (fs : Files) (l : Location) (part : String) : Except SystemFault Location :=
  match fs.node? l with
  | none => .error .notFound
  | some .folder =>
      if longestPart < part.utf8ByteSize then .error .nameTooLong
      else if part = "." then .ok l
      -- above the root lies the root itself
      else if part = ".." then .ok l.dropLast
      else .ok (l ++ [part])
  | some _ => .error .notFolder

/-- Follow a path; its last part need not exist. -/
def follow (fs : Files) (p : FilePath) : Except SystemFault Location :=
  if p.toList.contains '\x00' then .error .nulInPath
  else if p.isEmpty then .error .notFound
  else if pathLimit ≤ p.utf8ByteSize then .error .nameTooLong
  else p.parts.foldlM fs.enter (if p.isAbsolute then [] else fs.here)

def isFolder (fs : Files) (p : FilePath) : Bool :=
  match fs.follow p with
  | .ok l => fs.node? l == some .folder
  | .error _ => false

def contains (fs : Files) (p : FilePath) : Bool :=
  match fs.follow p with
  | .ok l => (fs.node? l).isSome
  | .error _ => false

/-! ## Reading and writing -/

def read (fs : Files) (p : FilePath) : Except SystemFault (List UInt8) :=
  match fs.follow p with
  | .error f => .error f
  | .ok l =>
      match fs.node? l with
      | none => .error .notFound
      | some .folder => .error .isFolder
      | some (.file content) => if p.endsInSlash then .error .notFolder else .ok content
      | some (.device _) => .ok []

/-- Open a file for appending, making it if it is not there. -/
def openForAppend (fs : Files) (p : FilePath) : Except SystemFault (Location × Files) :=
  match fs.follow p with
  | .error f => .error f
  | .ok l =>
      if p.endsInSlash then .error .isFolder
      else
        match fs.node? l with
        | none => .ok (l, fs.put l (.file []))
        | some .folder => .error .isFolder
        | some _ => .ok (l, fs)

def append (fs : Files) (l : Location) (bytes : List UInt8) : Except SystemFault Files :=
  match fs.node? l with
  | some (.file content) => .ok (fs.put l (.file (content ++ bytes)))
  | some (.device .full) => .error .noSpace
  | _ => .ok fs

/-- Make a file that must not be there yet. -/
def createNew (fs : Files) (p : FilePath) : Except SystemFault Files :=
  match fs.follow p with
  | .error f => .error f
  | .ok l =>
      if p.asksFolder then .error .isFolder
      else if (fs.node? l).isSome then .error .alreadyThere
      else .ok (fs.put l (.file []))

/-- Replace the content of a file, making it if it is not there. -/
def write (fs : Files) (p : FilePath) (bytes : List UInt8) : Except SystemFault Files :=
  match fs.openForAppend p with
  | .error f => .error f
  | .ok (l, fs) =>
      match fs.node? l with
      | some (.file _) => .ok (fs.put l (.file bytes))
      | _ => fs.append l bytes

def remove (fs : Files) (p : FilePath) : Except SystemFault Files :=
  match fs.follow p with
  | .error f => .error f
  | .ok l =>
      match fs.node? l with
      | none => .error .notFound
      | some .folder => .error .isFolder
      | some _ => .ok (fs.erase l)

/-! ## Folders -/

def makeFolder (fs : Files) (p : FilePath) : Except SystemFault Files :=
  match fs.follow p with
  | .error f => .error f
  | .ok l =>
      if (fs.node? l).isSome then .error .alreadyThere
      else .ok (fs.put l .folder)

/-- Make a folder and those above it; `depth` bounds the folders above. -/
def makeFoldersWithin (fs : Files) (p : FilePath) : (depth : Nat) → Except SystemFault Files
  | 0 => .ok fs
  | depth + 1 =>
      if p.isEmpty then .ok fs
      else
        match fs.makeFolder p with
        | .ok fs => .ok fs
        -- a folder above is missing: make that one first
        | .error .notFound =>
            match p.parent? with
            | none => .error .notFound
            | some above =>
                match makeFoldersWithin fs above depth with
                | .error f => .error f
                | .ok fs =>
                    match fs.makeFolder p with
                    | .ok fs => .ok fs
                    | .error f => if fs.isFolder p then .ok fs else .error f
        -- a folder that is there already is as good as a new one
        | .error f => if fs.isFolder p then .ok fs else .error f

/-- Make a folder and those above it, where they are missing. -/
def makeFolders (fs : Files) (p : FilePath) : Except SystemFault Files :=
  fs.makeFoldersWithin p (p.parts.length + 1)

/-- Write a file, making the folders above it. -/
def place (fs : Files) (p : FilePath) (bytes : List UInt8) : Except SystemFault Files :=
  match p.parent? with
  | none => fs.write p bytes
  | some above => (fs.makeFolders above).bind fun fs => fs.write p bytes

/-! ## Listing -/

/-- Every file below the working folder, by its path from there. -/
def listing (fs : Files) : List (FilePath × List UInt8) :=
  fs.nodes.filterMap fun
    | (l, .file content) =>
        if fs.here.isPrefixOf l && fs.here != l then
          some (String.intercalate "/" (l.drop fs.here.length), content)
        else none
    | _ => none

end Files
end Telemetry
