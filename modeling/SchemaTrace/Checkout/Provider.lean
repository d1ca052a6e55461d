import SchemaTrace.Checkout.Listing
import SchemaTrace.Provider.Basic
/-!
A provider over a local checkout. What it gives is what is on disk, whatever the commit asked for;
the commit it reports is that of the branch, of what is checked out if there is no such branch, or
a fixed name outside of version control.
-/
namespace SchemaTrace.Checkout

/-- The commit of a checkout without version control. -/
def workingTree : String := "working-tree"

def readTrimmed? (t : FileTree) (path : String) : Option String := do
  let text ← (t.readText path).toOption
  let trimmed := Text.trim text.toList
  if trimmed.isEmpty then none else some (String.ofList trimmed)

def packedCommit? (reference line : String) : Option String := do
  let (commit, name) ← Text.splitFirst? ' ' line.toList
  if String.ofList name = reference then some (String.ofList commit) else none

def readReference? (t : FileTree) (git reference : String) : Option String :=
  readTrimmed? t (Path.join git reference) <|>
    (t.readText (Path.join git "packed-refs")).toOption.bind fun packed =>
      (Text.lines packed).findSome? (packedCommit? reference)

def checkedOut (t : FileTree) (root git : String) : Except FetchError String :=
  match readTrimmed? t (Path.join git "HEAD") with
  | none => .error ⟨s!"HEAD of {root}", "unreadable"⟩
  | some head =>
    match Text.after? "ref: ".toList head.toList with
    | none => .ok head
    | some reference =>
      let reference := String.ofList reference
      match readReference? t git reference with
      | some commit => .ok commit
      | none => .error ⟨s!"ref {reference}", "unresolved"⟩

def head (t : FileTree) (root : String) (r : Repository) : Except FetchError String :=
  let git := Path.join root ".git"
  if t.isDirectory git then
    match readReference? t git ("refs/heads/" ++ r.branch) with
    | some commit => .ok commit
    | none => checkedOut t root git
  else if t.isDirectory root then .ok workingTree
  else .error ⟨s!"checkout {root}", "not a directory"⟩

def locate (root path : String) : String := (Path.names path).foldl Path.join root

def entryAt (directory : String) : String × FileNode → Entry
  | (name, .directory _) => .directory (Provider.joinPath directory name)
  | (name, _) => .file (Provider.joinPath directory name)

def list (t : FileTree) (root path : String) : Except FetchError (List Entry) :=
  let directory := locate root path
  match shownEntries t directory with
  | .ok shown => .ok (shown.map (entryAt path))
  | .error _ => .error ⟨s!"directory {directory}", "no such directory"⟩

def file (t : FileTree) (root path : String) : Except FetchError String :=
  let file := locate root path
  match t.readText file with
  | .ok text => .ok text
  | .error e => .error ⟨s!"file {file}", e.message⟩

mutual

def depth : FileNode → Nat
  | .directory entries => depthOfEntries entries + 1
  | _ => 0

def depthOfEntries : List (String × FileNode) → Nat
  | [] => 0
  | (_, node) :: rest => max (depth node) (depthOfEntries rest)

end

def provider (t : FileTree) (root : String) : Provider where
  head := head t root
  list _ path := list t root path
  file _ path := file t root path
  depth := depth t.root

end SchemaTrace.Checkout
