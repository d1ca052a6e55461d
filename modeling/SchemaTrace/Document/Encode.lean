import SchemaTrace.Document.Basic
import SchemaTrace.SortedMap
/-!
Building documents. An absent optional field and a flag that is not set are left out.
-/
namespace SchemaTrace.Document.Encode

abbrev Fields := List (String × Document)

def field (name : String) (value : Document) : Fields := [(name, value)]

def optional {α : Type} (name : String) (encode : α → Document) (value : Option α) : Fields :=
  match value with
  | none => []
  | some a => [(name, encode a)]

def flag (name : String) (value : Bool) : Fields := if value then [(name, .bool true)] else []

def list {α : Type} (encode : α → Document) (items : List α) : Document :=
  .list (items.map encode)

def map {α : Type} (encode : α → Document) (m : SortedMap α) : Document :=
  .record (m.toList.map fun (key, value) => (key, encode value))

end SchemaTrace.Document.Encode
