import Telemetry.Files.Fault

/-!
# Paths

A path is a text; its parts stand between slashes.  Two paths name the same series when they have
the same parts, so doubled slashes and dots within a path do not tell paths apart.
-/

namespace Telemetry

abbrev FilePath := String

namespace FilePath

def isAbsolute (p : FilePath) : Bool :=
  p.toList.head? == some '/'

/-- The parts between slashes, empty ones left out. -/
def parts (p : FilePath) : List String :=
  ((p.toList.splitOn '/').filter fun cs => !cs.isEmpty).map String.ofList

def endsInSlash (p : FilePath) : Bool :=
  p.toList.getLast? == some '/'

/-- Whether a slash at the end asks that an ordinary name be a folder; a dot or two dots are one
anyhow. -/
def asksFolder (p : FilePath) : Bool :=
  p.endsInSlash && p.parts.getLast?.any fun name => name != "." && name != ".."

/-- What tells paths apart: whether they start at the root, and their parts; a dot counts only at the
start of a relative path. -/
def identity (p : FilePath) : Bool × List String :=
  match p.isAbsolute, p.parts with
  | false, "." :: rest => (false, "." :: rest.filter (· != "."))
  | absolute, all => (absolute, all.filter (· != "."))

/-- The path without its last part: `none` for the root and for the empty path. -/
def parent? (p : FilePath) : Option FilePath :=
  match p.identity with
  | (_, []) => none
  | (absolute, all) =>
      let joined := String.intercalate "/" all.dropLast
      some (if absolute then "/" ++ joined else joined)

end FilePath
end Telemetry
