import Telemetry.Files.Tree

/-!
# Series sinks

A series is a file to which one update is appended per line.  Sinks are opened when they are first
used and kept by the parts of their path; one that fails is closed and opened anew at its next update.
A sink may also be kept in memory, with room for a limited count of updates.
-/

namespace Telemetry

inductive Sink where
  | file (l : Location)
  /-- kept in memory under a name, with the updates it still takes, if there is a limit -/
  | memory (name : FilePath) (room : Option Nat)
  deriving DecidableEq, Repr

structure Series where
  files : Files
  /-- open sinks, by what tells their paths apart -/
  sinks : List ((Bool × List String) × Sink)
  recorded : List (FilePath × String)
  deriving DecidableEq

namespace Series

def onFiles (files : Files) : Series :=
  ⟨files, [], []⟩

def size (s : Series) : Nat :=
  s.sinks.length

def find? (s : Series) (path : FilePath) : Option Sink :=
  (s.sinks.find? fun e => e.1 = path.identity).map (·.2)

def close (s : Series) (path : FilePath) : Series :=
  { s with sinks := s.sinks.filter fun e => e.1 ≠ path.identity }

def insert (s : Series) (path : FilePath) (sink : Sink) : Series :=
  { s with sinks := (s.close path).sinks ++ [(path.identity, sink)] }

def clear (s : Series) : Series :=
  { s with sinks := [] }

def line (update : String) : List UInt8 :=
  (update ++ "\n").toUTF8.toList

def openFile (s : Series) (path : FilePath) : Except SystemFault (Location × Series) :=
  (s.files.openForAppend path).map fun (l, files) => (l, { s with files := files })

/-- Append a line to an open file, and tell whether that went through. -/
def appendLine (s : Series) (l : Location) (update : String) : Bool × Series :=
  match s.files.append l (line update) with
  | .ok files => (true, { s with files := files })
  | .error _ => (false, s)

/-- Write to an open sink, and tell whether the update was stored. -/
def write (s : Series) (path : FilePath) (sink : Sink) (update : String) : Bool × Series :=
  match sink with
  | .file l =>
      match s.appendLine l update with
      | (true, s) => (true, s)
      -- closed, so that the next update opens the file anew
      | (false, s) => (false, s.close path)
  | .memory _ (some 0) => (false, s.close path)
  | .memory name (some (room + 1)) =>
      (true,
        { s.insert path (.memory name (some room)) with
          recorded := s.recorded ++ [(name, update)] })
  | .memory name none => (true, { s with recorded := s.recorded ++ [(name, update)] })

def update (s : Series) (path : FilePath) (update : String) : Bool × Series :=
  match s.find? path with
  | some sink => s.write path sink update
  | none =>
      match s.openFile path with
      | .error _ => (false, s)
      | .ok (l, s) => (s.insert path (.file l)).write path (.file l) update

/-- Take what the open series files hold: each file with its content, and the series with those files
empty. -/
def flush (s : Series) : List (Location × List UInt8) × Series :=
  s.sinks.foldl
    (fun (taken, s) e =>
      match e.2 with
      | .memory .. => (taken, s)
      | .file l =>
          match s.files.node? l with
          | some (.file content) =>
              (taken ++ [(l, content)], { s with files := s.files.put l (.file []) })
          | _ => (taken, s))
    ([], s)

end Series
end Telemetry
