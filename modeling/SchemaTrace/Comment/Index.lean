import SchemaTrace.Comment.Annotation
import SchemaTrace.SourceFile
/-!
The annotations of many files by symbol, in the order of the files.
-/
namespace SchemaTrace.Comment

structure FileAnnotation where
  source : SourceFile
  comment : Annotation
  deriving DecidableEq, Repr

abbrev Index := SortedMap (List FileAnnotation)

namespace Index

def addFile (tag : String) (index : Index) (file : SourceFile × String) : Index :=
  (parse tag.toList file.2.toList).toList.foldl
    (fun index (symbol, found) => index.append symbol (found.map (⟨file.1, ·⟩))) index

def ofFiles (tag : String) (files : List (SourceFile × String)) : Index :=
  files.foldl (addFile tag) .empty

def about (index : Index) (symbol : String) : List FileAnnotation := (index.get? symbol).getD []

def count (index : Index) : Nat := index.values.flatten.length

end Index
end SchemaTrace.Comment
