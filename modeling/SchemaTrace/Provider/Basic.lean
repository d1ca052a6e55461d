import SchemaTrace.Error
import SchemaTrace.Repository
/-!
Providers of sources: what they answer, at one moment, about a repository. Paths are separated by
slashes and relative to the repository; the empty path is its root.
-/
namespace SchemaTrace

inductive Entry where
  | file (path : String)
  | directory (path : String)
  deriving DecidableEq, Repr

namespace Entry

def filePath? : Entry → Option String
  | .file path => some path
  | .directory _ => none

def directoryPath? : Entry → Option String
  | .file _ => none
  | .directory path => some path

end Entry

inductive Request where
  | head
  | list (commit path : String)
  | file (commit path : String)
  deriving DecidableEq, Repr

structure Provider where
  /-- The commit a branch points at. -/
  head : Repository → Except FetchError String
  /-- The entries directly below a directory at a commit. -/
  list : (commit path : String) → Except FetchError (List Entry)
  /-- The content of a file at a commit. -/
  file : (commit path : String) → Except FetchError String
  /-- No directory lies within more others than this. -/
  depth : Nat

namespace Provider

def joinPath (directory name : String) : String :=
  if directory.isEmpty then name else directory ++ "/" ++ name

end Provider
end SchemaTrace
