import SchemaTrace.Comment.Index
import SchemaTrace.Proofs.SortedMap.Append

/-! What an index of many files holds of a symbol: the annotations of each file in turn. -/

namespace SchemaTrace.Comment.Index

def aboutIn (tag : String) (symbol : String) (file : SourceFile × String) : List FileAnnotation :=
  (((parse tag.toList file.2.toList).get? symbol).getD []).map fun a => ⟨file.1, a⟩

theorem about_addFile (tag : String) (index : Index) (file : SourceFile × String)
    (symbol : String) :
    (addFile tag index file).about symbol = index.about symbol ++ aboutIn tag symbol file := by
  have folded := SortedMap.getD_foldl_append (parse tag.toList file.2.toList).toList (·.1)
    (fun e => e.2.map fun a => (⟨file.1, a⟩ : FileAnnotation)) index symbol
  rw [← List.map_flatMap, SortedMap.flatMap_toList_filter] at folded
  exact folded

theorem about_foldl_addFile (tag : String) (files : List (SourceFile × String)) (index : Index)
    (symbol : String) : (files.foldl (addFile tag) index).about symbol =
      index.about symbol ++ files.flatMap (aboutIn tag symbol) := by
  induction files generalizing index with
  | nil => simp
  | cons file rest ih =>
    rw [List.foldl_cons, ih, about_addFile, List.append_assoc, List.flatMap_cons]

theorem about_ofFiles (tag : String) (files : List (SourceFile × String)) (symbol : String) :
    (ofFiles tag files).about symbol = files.flatMap (aboutIn tag symbol) :=
  about_foldl_addFile tag files .empty symbol

end SchemaTrace.Comment.Index
