import Mathlib.Data.List.Nodup
import Mathlib.Logic.Relation
import SchemaTrace.Configuration.Validity

/-! Which entries take references from which others. Where no entry leads back to itself, each has
fewer entries below it than those that merge it, so that a fact about an entry may be shown from
the same fact about the entries it merges. -/

namespace SchemaTrace

namespace Configuration

open Relation (ReflTransGen TransGen)

/-- An entry takes references from another one. -/
def Merges (c : Configuration) (id member : String) : Prop :=
  ∃ e ∈ c.entries, e.id = id ∧ ∃ members, e.merge = some members ∧ member ∈ members

/-- No entry merges itself, directly or through others. -/
def Acyclic (c : Configuration) : Prop := ∀ id, ¬TransGen c.Merges id id

variable {c : Configuration} {id member : String} {e : ConfiguredEntry}

theorem mem_ids_of_merges (merges : c.Merges id member) : id ∈ c.ids := by
  rcases merges with ⟨e, inside, rfl, -⟩
  exact List.mem_map_of_mem inside

theorem exists_find?_of_mem_ids (configured : id ∈ c.ids) : ∃ e, c.find? id = some e := by
  rcases List.mem_map.mp configured with ⟨e, inside, same⟩
  apply Option.isSome_iff_exists.mp
  rw [find?, List.find?_isSome]
  exact ⟨e, inside, by simpa using same⟩

theorem find?_eq_some_iff (distinct : c.ids.Nodup) :
    c.find? id = some e ↔ e ∈ c.entries ∧ e.id = id := by
  constructor
  · intro found
    have same : e.id = id := by simpa using List.find?_some found
    exact ⟨List.mem_of_find?_eq_some found, same⟩
  · rintro ⟨inside, rfl⟩
    rcases exists_find?_of_mem_ids (List.mem_map_of_mem inside) with ⟨first, found⟩
    have same : first.id = e.id := by simpa using List.find?_some found
    have first_eq : first = e :=
      List.inj_on_of_nodup_map distinct (List.mem_of_find?_eq_some found) inside same
    rw [found, first_eq]

theorem merges_iff (distinct : c.ids.Nodup) (found : c.find? id = some e) :
    c.Merges id member ↔ member ∈ e.merge.getD [] := by
  have here := (find?_eq_some_iff distinct).mp found
  constructor
  · rintro ⟨other, inside, same, members, merge, listed⟩
    have other_eq : other = e := Option.some.inj
      (((find?_eq_some_iff distinct).mpr ⟨inside, same⟩).symm.trans found)
    rw [← other_eq, merge]
    exact listed
  · intro listed
    cases merge : e.merge with
    | none =>
      rw [merge] at listed
      cases listed
    | some members =>
      rw [merge] at listed
      exact ⟨e, here.1, here.2, members, merge, listed⟩

open Classical in
noncomputable def rank (c : Configuration) (id : String) : Nat :=
  (c.ids.filter fun other => TransGen c.Merges id other).length

open Classical in
theorem rank_lt (acyclic : c.Acyclic) (merges : c.Merges id member) (configured : member ∈ c.ids) :
    c.rank member < c.rank id := by
  apply length_filter_lt (x := member)
  · intro other below
    exact decide_eq_true (.head merges (of_decide_eq_true below))
  · exact configured
  · exact decide_eq_true (.single merges)
  · exact decide_eq_false (acyclic member)

theorem Acyclic.induction {P : String → Prop} (acyclic : c.Acyclic)
    (step : ∀ id, (∀ member, c.Merges id member → P member) → P id) (id : String) : P id := by
  generalize bound : c.rank id = n
  induction n using Nat.strongRecOn generalizing id with
  | _ n ih =>
    apply step
    intro member merges
    by_cases configured : member ∈ c.ids
    · exact ih _ (bound ▸ rank_lt acyclic merges configured) member rfl
    · apply step
      intro other further
      exact absurd (mem_ids_of_merges further) configured

theorem acyclic_of_lt (measure : String → Nat)
    (lower : ∀ id member, c.Merges id member → measure member < measure id) : c.Acyclic := by
  have below (id other : String) (path : TransGen c.Merges id other) :
      measure other < measure id := by
    induction path with
    | single merges => exact lower _ _ merges
    | tail _ merges ih => exact Nat.lt_trans (lower _ _ merges) ih
  intro id path
  exact Nat.lt_irrefl _ (below id id path)

end Configuration
end SchemaTrace
