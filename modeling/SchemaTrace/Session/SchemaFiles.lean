import SchemaTrace.FileTree
import SchemaTrace.Schema.Decode
import SchemaTrace.Schema.Stable
import SchemaTrace.Version
/-!
The version of the protocol that local schema files make up, merged in the order given. Nothing is
read before the model is asked for.
-/
namespace SchemaTrace

structure SchemaFiles where
  paths : List String
  /-- Whether experimental and deprecated members are left out. -/
  stable : Bool := false
  deriving DecidableEq, Repr

namespace SchemaFiles

def metadata (files : SchemaFiles) : VersionMetadata where
  slug := if files.stable then "stable" else "tot"
  name := if files.stable then "Stable" else "Tip-of-tree"
  description := ", ".intercalate files.paths
  published := !files.stable

def readSchema (t : FileTree) (path : String) : Except Error Schema :=
  match t.readText path with
  | .error e => .error (.fetch ⟨s!"schema {path}", e.message⟩)
  | .ok source => (Schema.ofJson source).mapError .json

def load (files : SchemaFiles) (t : FileTree) : Except Error Schema := do
  match ← files.paths.mapM (readSchema t) with
  | [] => throw (.schema .noSources)
  | first :: rest =>
    let merged := first.merge rest
    return if files.stable then merged.stable else merged

def version (files : SchemaFiles) : Version := { metadata := files.metadata }

end SchemaFiles
end SchemaTrace
