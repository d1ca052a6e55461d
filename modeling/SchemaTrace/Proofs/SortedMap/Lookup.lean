import Mathlib.Data.List.Sort
import SchemaTrace.SortedMap

/-! What a lookup finds after the value of a key was altered: the altered value under that key,
and under every other key what it found before. -/

namespace SchemaTrace

namespace SortedMap

variable {α : Type}

theorem lookup_cons_eq_ite (key k : String) (v : α) (rest : List (String × α)) :
    ((k, v) :: rest).lookup key = if key = k then some v else rest.lookup key := by
  rw [List.lookup_cons]
  by_cases same : key = k
  · simp [same]
  · have test : (key == k) = false := beq_eq_false_iff_ne.mpr same
    simp [same, test]

theorem lookup_eq_none_of_below {key : String} {entries : List (String × α)}
    (below : ∀ e ∈ entries, key < e.1) : entries.lookup key = none := by
  rw [List.lookup_eq_none_iff]
  intro e member
  have less := below e member
  have ne : key ≠ e.1 := by
    intro eq
    exact String.lt_irrefl e.1 (eq ▸ less)
  simpa using ne

theorem lookup_alterEntries (key other : String) (f : Option α → α)
    {entries : List (String × α)} (sorted : KeysIncrease entries) :
    (alterEntries key f entries).lookup other =
      if other = key then some (f (entries.lookup key)) else entries.lookup other := by
  induction entries with
  | nil => simp [alterEntries, lookup_cons_eq_ite]
  | cons head rest ih =>
    obtain ⟨k, v⟩ := head
    have first := (List.pairwise_cons.mp sorted).1
    have tail := ih (List.Pairwise.of_cons sorted)
    simp only [alterEntries]
    split
    · next less =>
      have absent : ((k, v) :: rest).lookup key = none := by
        apply lookup_eq_none_of_below
        intro e member
        rcases List.mem_cons.mp member with rfl | member
        · exact less
        · exact String.lt_trans less (first e member)
      rw [absent, lookup_cons_eq_ite]
    · next notLess =>
      split
      · next eq =>
        subst eq
        rw [lookup_cons_eq_ite, lookup_cons_eq_ite, lookup_cons_eq_ite]
        by_cases same : other = key <;> simp [same]
      · next ne =>
        rw [lookup_cons_eq_ite, lookup_cons_eq_ite, lookup_cons_eq_ite, tail]
        by_cases same : other = k
        · subst same
          have ne' : other ≠ key := fun eq => ne eq.symm
          simp [ne']
        · simp [same, ne]

theorem get?_alter (m : SortedMap α) (key other : String) (f : Option α → α) :
    (m.alter key f).get? other = if other = key then some (f (m.get? key)) else m.get? other :=
  lookup_alterEntries key other f m.increasing

@[simp] theorem get?_empty (key : String) : (empty : SortedMap α).get? key = none := rfl

theorem get?_insert (m : SortedMap α) (key other : String) (value : α) :
    (m.insert key value).get? other = if other = key then some value else m.get? other :=
  get?_alter m key other fun _ => value

theorem mem_entries_iff {m : SortedMap α} {key : String} {value : α} :
    (key, value) ∈ m.entries ↔ m.get? key = some value := by
  obtain ⟨entries, sorted⟩ := m
  simp only [get?]
  induction entries with
  | nil => simp
  | cons head rest ih =>
    obtain ⟨k, v⟩ := head
    have first := (List.pairwise_cons.mp sorted).1
    rw [List.mem_cons, ih (List.Pairwise.of_cons sorted), lookup_cons_eq_ite]
    split
    · next same =>
      rw [same, lookup_eq_none_of_below first]
      simp [eq_comm]
    · next differs => simp [differs]

theorem ext_get? {m n : SortedMap α} (same : ∀ key, m.get? key = n.get? key) : m = n := by
  have irrefl : Std.Irrefl fun a b : String × α => a.1 < b.1 := ⟨fun a => String.lt_irrefl a.1⟩
  have antisymm : Std.Antisymm fun a b : String × α => a.1 < b.1 :=
    ⟨fun a b less more => absurd (String.lt_trans less more) (String.lt_irrefl a.1)⟩
  apply ext
  apply List.Pairwise.eq_of_mem_iff m.increasing n.increasing
  rintro ⟨key, value⟩
  rw [mem_entries_iff, mem_entries_iff, same]

theorem get?_foldl_insert {entries : List (String × α)} (sorted : KeysIncrease entries)
    (m : SortedMap α) (key : String) :
    (entries.foldl (fun m (key, value) => m.insert key value) m).get? key =
      (entries.lookup key).or (m.get? key) := by
  induction entries generalizing m with
  | nil => rfl
  | cons head rest ih =>
    obtain ⟨k, v⟩ := head
    have first := (List.pairwise_cons.mp sorted).1
    rw [List.foldl_cons, ih (List.Pairwise.of_cons sorted), get?_insert, lookup_cons_eq_ite]
    by_cases same : key = k
    · rw [same, lookup_eq_none_of_below first, if_pos rfl, if_pos rfl]
      rfl
    · rw [if_neg same, if_neg same]

theorem ofList_toList (m : SortedMap α) : ofList m.toList = m := by
  apply ext_get?
  intro key
  rw [ofList, toList, get?_foldl_insert m.increasing, get?_empty, Option.or_none]
  rfl

theorem nodup_keys (m : SortedMap α) : m.keys.Nodup := by
  apply List.Pairwise.map _ _ m.increasing
  intro a b less eq
  exact String.lt_irrefl b.1 (eq ▸ less)

end SortedMap
end SchemaTrace
