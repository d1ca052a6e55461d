import SchemaTrace.Proofs.SortedMap.Lookup

/-! Lists that are gathered under keys. Appending one item list after the other leaves under each
key what was there, followed by the lists given for that key in their order. -/

namespace SchemaTrace

namespace SortedMap

variable {β γ : Type}

theorem get?_append (m : SortedMap (List β)) (key other : String) (items : List β) :
    (m.append key items).get? other =
      if other = key then some ((m.get? key).getD [] ++ items) else m.get? other :=
  get?_alter m key other fun old => old.getD [] ++ items

theorem getD_append (m : SortedMap (List β)) (key other : String) (items : List β) :
    ((m.append key items).get? other).getD [] =
      (m.get? other).getD [] ++ if key = other then items else [] := by
  rw [get?_append]
  by_cases same : key = other
  · simp [same]
  · have differs : ¬other = key := fun eq => same eq.symm
    simp [same, differs]

theorem getD_foldl_append (entries : List γ) (keyOf : γ → String) (items : γ → List β)
    (m : SortedMap (List β)) (key : String) :
    ((entries.foldl (fun m e => m.append (keyOf e) (items e)) m).get? key).getD [] =
      (m.get? key).getD [] ++ (entries.filter fun e => keyOf e = key).flatMap items := by
  induction entries generalizing m with
  | nil => simp
  | cons e rest ih =>
    rw [List.foldl_cons, ih, getD_append, List.append_assoc]
    by_cases same : keyOf e = key
    · simp [same]
    · simp [same]

theorem isSome_foldl_append (entries : List γ) (keyOf : γ → String) (items : γ → List β)
    (m : SortedMap (List β)) (key : String) :
    ((entries.foldl (fun m e => m.append (keyOf e) (items e)) m).get? key).isSome = true ↔
      (m.get? key).isSome = true ∨ key ∈ entries.map keyOf := by
  induction entries generalizing m with
  | nil => simp
  | cons e rest ih =>
    rw [List.foldl_cons, ih, get?_append, List.map_cons, List.mem_cons]
    by_cases same : key = keyOf e
    · simp [same]
    · simp [same]

theorem flatMap_toList_filter {β : Type} (m : SortedMap (List β)) (key : String) :
    (m.toList.filter fun e => e.1 = key).flatMap (·.2) = (m.get? key).getD [] := by
  obtain ⟨entries, sorted⟩ := m
  simp only [toList, get?]
  induction entries with
  | nil => rfl
  | cons head rest ih =>
    obtain ⟨k, v⟩ := head
    have above := (List.pairwise_cons.mp sorted).1
    rw [lookup_cons_eq_ite, List.filter_cons]
    by_cases same : key = k
    · subst same
      have none : rest.filter (fun e => e.1 = key) = [] := by
        apply List.filter_eq_nil_iff.mpr
        intro e member
        have less := above e member
        have ne : ¬e.1 = key := fun eq => String.lt_irrefl key (eq ▸ less)
        simpa using ne
      simp [none]
    · have differs : ¬k = key := fun eq => same eq.symm
      simp [same, differs, ih (List.Pairwise.of_cons sorted)]

end SortedMap
end SchemaTrace
