import SchemaTrace.Proofs.Schema.Order

/-! Merging and stabilising. What is dropped for its flags leaves the order of the rest alone, so a
merge of stable parts is the stable part of the merge. -/

namespace SchemaTrace.Schema

def joined (first : Schema) (rest : List Schema) : Schema :=
  { first with domains := first.domains ++ rest.flatMap (·.domains) }

theorem merge_eq_sort_joined (first : Schema) (rest : List Schema) :
    first.merge rest = (first.joined rest).sort := rfl

theorem stable_sort (s : Schema) : s.sort.stable = s.stable.sort := by
  have domains : ((sortDomains (s.domains.map Domain.sortMembers)).filter Domain.isStable).map
      Domain.stable =
      sortDomains (((s.domains.filter Domain.isStable).map Domain.stable).map
        Domain.sortMembers) := by
    calc
      ((sortDomains (s.domains.map Domain.sortMembers)).filter Domain.isStable).map Domain.stable =
          (sortDomains ((s.domains.map Domain.sortMembers).filter Domain.isStable)).map
            Domain.stable := by rw [filter_sortDomains]
      _ = sortDomains (((s.domains.map Domain.sortMembers).filter Domain.isStable).map
            Domain.stable) := by
        rw [map_sortDomains]
        exact fun _ => rfl
      _ = sortDomains (((s.domains.filter Domain.isStable).map Domain.sortMembers).map
            Domain.stable) := by
        simp only [List.filter_map, Function.comp_def, Domain.isStable_sortMembers]
      _ = sortDomains (((s.domains.filter Domain.isStable).map Domain.stable).map
            Domain.sortMembers) := by
        rw [List.map_map, List.map_map]
        congr 2
        funext d
        exact d.sortMembers_stable
  simp only [stable, sort, domains]

theorem stable_joined (first : Schema) (rest : List Schema) :
    (first.joined rest).stable = first.stable.joined (rest.map Schema.stable) := by
  simp [joined, stable, List.filter_flatMap, List.map_flatMap, List.flatMap_map]

theorem stable_stable (s : Schema) : s.stable.stable = s.stable := by
  have stays (d : Domain) (kept : d ∈ s.stable.domains) : d.isStable = true := by
    obtain ⟨inner, member, rfl⟩ := List.mem_map.mp kept
    rw [Domain.isStable_stable]
    exact (List.mem_filter.mp member).2
  have settled (d : Domain) (kept : d ∈ s.stable.domains) : d.stable = d := by
    obtain ⟨inner, -, rfl⟩ := List.mem_map.mp kept
    exact inner.stable_stable
  have domains : (s.stable.domains.filter Domain.isStable).map Domain.stable =
      s.stable.domains := by
    rw [List.filter_eq_self.mpr stays, List.map_congr_left settled, List.map_id']
  rw [stable, domains]

/-- The stable part of a merge is the merge of the stable parts, and stabilising twice is
stabilising once. -/
theorem stable_merge (first : Schema) (rest : List Schema) :
    (first.merge rest).stable = first.stable.merge (rest.map Schema.stable) ∧
      ∀ s : Schema, s.stable.stable = s.stable := by
  constructor
  · calc
      (first.merge rest).stable = (first.joined rest).stable.sort := by
        rw [merge_eq_sort_joined, stable_sort]
      _ = (first.stable.joined (rest.map Schema.stable)).sort := by rw [stable_joined]
      _ = first.stable.merge (rest.map Schema.stable) := (merge_eq_sort_joined _ _).symm
  · exact stable_stable

end SchemaTrace.Schema
