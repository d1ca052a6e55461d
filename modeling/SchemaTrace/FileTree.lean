import SchemaTrace.Path
import SchemaTrace.SortedMap
/-!
Files, directories and symbolic links below a root directory. A path is followed step by step,
through links, to the names of what it leads to; everything else about a path is asked of the
node found there.
-/
namespace SchemaTrace

inductive FileError where
  | notFound
  | notDirectory
  | isDirectory
  | tooManyLinks
  | invalidText
  deriving DecidableEq, Repr

def FileError.message : FileError → String
  | .notFound => "No such file or directory (os error 2)"
  | .notDirectory => "Not a directory (os error 20)"
  | .isDirectory => "Is a directory (os error 21)"
  | .tooManyLinks => "Too many levels of symbolic links (os error 40)"
  | .invalidText => "stream did not contain valid UTF-8"

inductive FileNode where
  | file (content : ByteArray)
  | link (target : String)
  /-- Entries in the order of their names. -/
  | directory (entries : List (String × FileNode))

namespace FileNode

def empty : FileNode := .directory []

instance : Inhabited FileNode := ⟨empty⟩

def ofText (text : String) : FileNode := .file text.toUTF8

def isDirectory : FileNode → Bool
  | .directory _ => true
  | _ => false

def at? (node : FileNode) : (names : List String) → Option FileNode
  | [] => some node
  | name :: rest =>
    match node with
    | .directory entries => (entries.lookup name).bind fun child => child.at? rest
    | _ => none

/-- Puts a node at a place; what stands in the way gives way to directories. -/
def put (node : FileNode) : (names : List String) → FileNode → FileNode
  | [], _ => node
  | name :: rest, old =>
    let entries := match old with
      | .directory entries => entries
      | _ => []
    .directory (SortedMap.alterEntries name (fun child => put node rest (child.getD empty)) entries)

def remove : (names : List String) → FileNode → FileNode
  | [], node => node
  | [name], .directory entries => .directory (entries.filter (·.1 ≠ name))
  | name :: rest, .directory entries =>
    .directory (entries.map fun (n, child) => (n, if n = name then remove rest child else child))
  | _, node => node

end FileNode

structure FileTree where
  /-- The root directory. -/
  root : FileNode := .empty
  /-- The names of the directory that relative paths are seen from. -/
  here : List String := []

namespace FileTree

def maxLinks : Nat := 40

/-- Follows steps from a place; the result may name an entry that is not there, if it is the last
and its directory is there. -/
def follow (t : FileTree) (links : Nat) (place : List String) :
    (steps : List String) → Except FileError (List String)
  | [] => .ok place
  | step :: rest =>
    match t.root.at? place with
    | none => .error .notFound
    | some (.directory entries) =>
      if step = "." then follow t links place rest
      else if step = ".." then follow t links place.dropLast rest
      else match entries.lookup step with
        | some (.link target) =>
          match links with
          | 0 => .error .tooManyLinks
          | links + 1 =>
            follow t links (if Path.isAbsolute target then [] else place)
              (Path.steps target ++ rest)
        | _ => follow t links (place ++ [step]) rest
    | some _ => .error .notDirectory
termination_by steps => (links, steps.length)

def start (t : FileTree) (path : String) : List String :=
  if Path.isAbsolute path then [] else t.here

def destination (t : FileTree) (path : String) : Except FileError (List String) :=
  if path.isEmpty then .error .notFound
  else t.follow maxLinks (t.start path) (Path.steps path)

def find (t : FileTree) (path : String) : Except FileError (List String × FileNode) := do
  let names ← t.destination path
  match t.root.at? names with
  | some node => return (names, node)
  | none => throw .notFound

def canonical (t : FileTree) (path : String) : Except FileError (List String) :=
  (t.find path).map (·.1)

def present (t : FileTree) (path : String) : Bool := (t.find path).isOk

def isDirectory (t : FileTree) (path : String) : Bool :=
  match t.find path with
  | .ok (_, node) => node.isDirectory
  | .error _ => false

def readBytes (t : FileTree) (path : String) : Except FileError ByteArray := do
  match ← t.find path with
  | (_, .file content) => return content
  | _ => throw .isDirectory

def readText (t : FileTree) (path : String) : Except FileError String := do
  match String.fromUTF8? (← t.readBytes path) with
  | some text => return text
  | none => throw .invalidText

def entries (t : FileTree) (path : String) : Except FileError (List (String × FileNode)) := do
  match ← t.find path with
  | (_, .directory entries) => return entries
  | _ => throw .notDirectory

def writeText (t : FileTree) (path text : String) : Except FileError FileTree := do
  let names ← t.destination path
  match t.root.at? names with
  | some (.directory _) => throw .isDirectory
  | _ =>
    if (t.root.at? names.dropLast).isNone then throw .notFound
    return { t with root := (FileNode.ofText text).put names t.root }

def put (t : FileTree) (path : String) (node : FileNode) : FileTree :=
  let names := (t.destination path).toOption.getD (t.start path ++ Path.names path)
  { t with root := node.put names t.root }

/-- Takes away what a path names; a link itself and not what it leads to. -/
def remove (t : FileTree) (path : String) : FileTree :=
  match Path.parent? path, (Path.names path).getLast? with
  | some directory, some name =>
    match t.canonical directory with
    | .ok names => { t with root := FileNode.remove (names ++ [name]) t.root }
    | .error _ => t
  | _, _ => t

end FileTree
end SchemaTrace
