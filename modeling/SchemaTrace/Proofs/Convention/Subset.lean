import SchemaTrace.Proofs.Convention.Checked
import SchemaTrace.Proofs.SortedMap.Lookup

/-! The subsets of a convention. The filters of a convention that compiles admit exactly the paths
of its subsets. -/

namespace SchemaTrace

namespace Convention

/-- A path lies in a subset: the patterns declared for the subset pick it out, or the subset is the
one of all files and nothing was declared for it. -/
def Covers (c : Convention) (subset path : String) : Prop :=
  match c.subsets.get? subset with
  | some spec => ∃ filter, PathFilter.ofPatterns spec.included spec.excluded = .ok filter ∧
      filter.admits path = true
  | none => subset = allFiles

theorem filtersFrom_get? {entries : List (String × SubsetSpec)} (sorted : KeysIncrease entries)
    {filters compiled : SortedMap PathFilter} (run : filtersFrom filters entries = .ok compiled)
    (name : String) :
    match entries.lookup name with
    | some spec => ∃ filter, PathFilter.ofPatterns spec.included spec.excluded = .ok filter ∧
        compiled.get? name = some filter
    | none => compiled.get? name = filters.get? name := by
  induction entries generalizing filters with
  | nil =>
    obtain rfl : filters = compiled := Except.ok.inj run
    rfl
  | cons entry rest ih =>
    obtain ⟨key, spec⟩ := entry
    obtain ⟨filter, built, run⟩ := Except.bind_eq_ok_iff.mp run
    have above := (List.pairwise_cons.mp sorted).1
    have tail := ih (List.Pairwise.of_cons sorted) run
    rw [SortedMap.lookup_cons_eq_ite]
    by_cases same : name = key
    · subst same
      have absent := SortedMap.lookup_eq_none_of_below above
      rw [absent] at tail
      simp only [SortedMap.get?_insert, if_true] at tail
      simp only [if_true]
      exact ⟨filter, built, tail⟩
    · simpa only [same, if_false, SortedMap.get?_insert] using tail

/-- The filter compiled for a subset admits the paths of the subset. -/
theorem covers_iff {c : Convention} {filters : SortedMap PathFilter}
    (compiled : c.compile = .ok filters) {subset path : String} :
    c.Covers subset path ↔
      ∃ filter, filters.get? subset = some filter ∧ filter.admits path = true := by
  have found := filtersFrom_get? c.subsets.increasing (compile_eq_ok_iff.mp compiled).1 subset
  unfold Covers SortedMap.get?
  unfold SortedMap.get? at found
  cases declared : c.subsets.entries.lookup subset with
  | some spec =>
    rw [declared] at found
    obtain ⟨filter, built, stored⟩ := found
    simp only [stored, built, Option.some.injEq, Except.ok.injEq]
  | none =>
    rw [declared] at found
    have start := SortedMap.get?_insert .empty allFiles subset PathFilter.all
    unfold SortedMap.get? at start
    simp only [found, start]
    by_cases everything : subset = allFiles
    · have admitted : PathFilter.all.admits path = true := by
        simp [PathFilter.admits, PathFilter.all]
      simp [everything, admitted]
    · simp [everything, SortedMap.empty]

end Convention
end SchemaTrace
