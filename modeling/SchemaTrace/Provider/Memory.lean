import SchemaTrace.Provider.Basic
import SchemaTrace.SortedMap
import SchemaTrace.Text.Basic
/-!
A provider over files held in memory, at a single commit. Directories are what the paths of the
files say they are. Any of its targets may be broken; asking for a broken target fails with the
reason given.
-/
namespace SchemaTrace

structure MemoryProvider where
  commit : String
  files : SortedMap String := .empty
  /-- Reasons for failure, by target: `head`, `dir:` and a path, or `file:` and a path. -/
  broken : SortedMap String := .empty

namespace MemoryProvider

def checkCommit (m : MemoryProvider) (commit : String) : Except FetchError Unit :=
  if commit = m.commit then .ok () else .error ⟨s!"commit {commit}", "unknown commit"⟩

def below? (directory path : String) : Option Text :=
  if directory.isEmpty then some path.toList
  else Text.after? (directory.toList ++ ['/']) path.toList

/-- Entries of a directory in the order of the paths; `seen` holds the subdirectories entered. -/
def entriesFrom (directory : String) (seen : List String) : List String → List Entry
  | [] => []
  | path :: paths =>
    match below? directory path with
    | none => entriesFrom directory seen paths
    | some rest =>
      match Text.splitFirst? '/' rest with
      | none => .file path :: entriesFrom directory seen paths
      | some (child, _) =>
        let child := String.ofList child
        if child ∈ seen then entriesFrom directory seen paths
        else
          .directory (Provider.joinPath directory child) ::
            entriesFrom directory (child :: seen) paths

def entries (m : MemoryProvider) (directory : String) : List Entry :=
  entriesFrom directory [] m.files.keys

def list (m : MemoryProvider) (commit path : String) : Except FetchError (List Entry) := do
  m.checkCommit commit
  let entries := m.entries path
  if entries.isEmpty && !path.isEmpty then throw ⟨s!"directory {path}", "no such directory"⟩
  return entries

def file (m : MemoryProvider) (commit path : String) : Except FetchError String := do
  m.checkCommit commit
  match m.files.get? path with
  | some content => return content
  | none => throw ⟨s!"file {path}", "no such file"⟩

def guard {α : Type} (m : MemoryProvider) (target : String) (answer : Except FetchError α) :
    Except FetchError α :=
  match m.broken.get? target with
  | some reason => .error ⟨target, reason⟩
  | none => answer

/-- A bound on the directories within each other: the longest path has no more slashes. -/
def depth (m : MemoryProvider) : Nat := (m.files.keys.map String.length).foldl max 0 + 2

def provider (m : MemoryProvider) : Provider where
  head _ := m.guard "head" (.ok m.commit)
  list commit path := m.guard ("dir:" ++ path) (m.list commit path)
  file commit path := m.guard ("file:" ++ path) (m.file commit path)
  depth := m.depth

def write (m : MemoryProvider) (path content : String) : MemoryProvider :=
  { m with files := m.files.insert path content }

def remove (m : MemoryProvider) (path : String) : MemoryProvider :=
  { m with files := m.files.erase path }

def breakTarget (m : MemoryProvider) (target reason : String) : MemoryProvider :=
  { m with broken := m.broken.insert target reason }

def heal (m : MemoryProvider) (target : String) : MemoryProvider :=
  { m with broken := m.broken.erase target }

end MemoryProvider
end SchemaTrace
