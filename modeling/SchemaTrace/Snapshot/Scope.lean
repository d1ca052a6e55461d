import SchemaTrace.Document.Decode
import SchemaTrace.Document.Encode
import SchemaTrace.Text.Basic
/-!
The part of a repository that a snapshot covers: directories with all below them, kept by file
extension, and single files whatever their extension.
-/
namespace SchemaTrace

open Document Document.RecordDecoder

structure Scope where
  roots : List String := []
  files : List String := []
  /-- Extensions without the dot; with none given every file below a root is kept. -/
  extensions : List String := []
  deriving DecidableEq, Repr

namespace Scope

def fileName (path : Text) : Text :=
  match Text.splitLast? '/' path with
  | some (_, name) => name
  | none => path

def extension? (path : String) : Option String :=
  (Text.splitLast? '.' (fileName path.toList)).map fun (_, extension) => String.ofList extension

def keeps (s : Scope) (path : String) : Bool :=
  s.extensions.isEmpty || (extension? path).any (· ∈ s.extensions)

def fields : RecordDecoder Scope :=
  Scope.mk <$> defaulted "roots" (Decode.list Decode.text) [] <*>
    defaulted "files" (Decode.list Decode.text) [] <*>
    defaulted "extensions" (Decode.list Decode.text) []

def encodeFields (s : Scope) : Encode.Fields :=
  [("roots", Encode.list .text s.roots), ("files", Encode.list .text s.files),
    ("extensions", Encode.list .text s.extensions)]

end Scope
end SchemaTrace
