import Mathlib.Data.List.Perm.Basic
import SchemaTrace.Proofs.Model.Lookup
import SchemaTrace.Proofs.Schema.Order
import SchemaTrace.Proofs.Schema.Restriction

/-! The members of a sorted schema. They are those of the schema itself in another order, and it
makes no difference whether members are chosen before or after sorting. -/

namespace SchemaTrace

namespace Domain

variable (d : Domain)

theorem mem_commandList_sortMembers_iff {c : Command} :
    c ∈ d.sortMembers.commandList ↔ c ∈ d.commandList := by
  rw [commandList, sortMembers, getD_sortMembers]
  exact (sortMembers_perm Command.key _).mem_iff

theorem mem_eventList_sortMembers_iff {e : Event} :
    e ∈ d.sortMembers.eventList ↔ e ∈ d.eventList := by
  rw [eventList, sortMembers, getD_sortMembers]
  exact (sortMembers_perm Event.key _).mem_iff

theorem mem_typeList_sortMembers_iff {t : TypeDef} :
    t ∈ d.sortMembers.typeList ↔ t ∈ d.typeList := by
  rw [typeList, sortMembers, getD_sortMembers]
  exact (sortMembers_perm TypeDef.key _).mem_iff

theorem memberShapes_sortMembers_perm (kind : MemberKind) :
    (d.sortMembers.memberShapes kind).Perm (d.memberShapes kind) := by
  cases kind with
  | command =>
    rw [memberShapes, commandList, sortMembers, getD_sortMembers]
    exact (sortMembers_perm Command.key _).map _
  | event =>
    rw [memberShapes, eventList, sortMembers, getD_sortMembers]
    exact (sortMembers_perm Event.key _).map _
  | type =>
    rw [memberShapes, typeList, sortMembers, getD_sortMembers]
    exact (sortMembers_perm TypeDef.key _).map _

theorem isEmpty_sortMembers : d.sortMembers.isEmpty = d.isEmpty := by
  have none (kind : MemberKind) :
      d.sortMembers.memberShapes kind = [] ↔ d.memberShapes kind = [] := by
    have perm := d.memberShapes_sortMembers_perm kind
    exact ⟨fun empty => (empty ▸ perm).nil_eq.symm, fun empty => (empty ▸ perm).eq_nil⟩
  rw [Bool.eq_iff_iff, isEmpty_iff, isEmpty_iff]
  simp only [none]

theorem restrictTo_sortMembers (keep : MemberKind → String → Bool) :
    d.sortMembers.restrictTo keep = (d.restrictTo keep).sortMembers := by
  simp only [restrictTo, sortMembers, key, filter_sortMembers_held]

end Domain

namespace Schema

variable {s : Schema}

theorem mem_domains_sort_iff {d : Domain} :
    d ∈ s.sort.domains ↔ ∃ inner ∈ s.domains, inner.sortMembers = d := by
  rw [sort, (sortDomains_perm _).mem_iff, List.mem_map]

theorem members_sort_perm (s : Schema) (kind : MemberKind) :
    (s.sort.members kind).Perm (s.members kind) := by
  have sorted : (s.sort.members kind).Perm ((s.domains.map Domain.sortMembers).flatMap fun d =>
      (d.memberShapes kind).map fun m => (d.key m.1, m.2)) :=
    (sortDomains_perm (s.domains.map Domain.sortMembers)).flatMap_right _
  refine sorted.trans ?_
  rw [List.flatMap_map]
  exact (List.Perm.refl s.domains).flatMap fun d _ =>
    (d.memberShapes_sortMembers_perm kind).map _

theorem keys_sort_perm (s : Schema) (kind : MemberKind) :
    (s.sort.keys kind).Perm (s.keys kind) := by
  rw [keys_eq_map, keys_eq_map]
  exact (s.members_sort_perm kind).map _

theorem names_sort_perm (s : Schema) :
    (s.sort.domains.map (·.name)).Perm (s.domains.map (·.name)) := by
  have sorted := (sortDomains_perm (s.domains.map Domain.sortMembers)).map (·.name)
  rwa [List.map_map] at sorted

theorem unambiguous_sort_iff : s.sort.Unambiguous ↔ s.Unambiguous := by
  constructor
  · intro unambiguous
    exact ⟨(names_sort_perm s).nodup_iff.mp unambiguous.domains,
      fun kind => (keys_sort_perm s kind).nodup_iff.mp (unambiguous.members kind)⟩
  · intro unambiguous
    exact ⟨(names_sort_perm s).nodup_iff.mpr unambiguous.domains,
      fun kind => (keys_sort_perm s kind).nodup_iff.mpr (unambiguous.members kind)⟩

theorem restrictTo_sort (s : Schema) (keep : MemberKind → String → Bool) :
    s.sort.restrictTo keep = (s.restrictTo keep).sort := by
  have domains : ((sortDomains (s.domains.map Domain.sortMembers)).map (·.restrictTo keep)).filter
      (fun d => !d.isEmpty) = sortDomains (((s.domains.map (·.restrictTo keep)).filter
        fun d => !d.isEmpty).map Domain.sortMembers) := by
    calc
      ((sortDomains (s.domains.map Domain.sortMembers)).map (·.restrictTo keep)).filter
          (fun d => !d.isEmpty) =
          (sortDomains ((s.domains.map Domain.sortMembers).map (·.restrictTo keep))).filter
            fun d => !d.isEmpty := by
        rw [map_sortDomains]
        exact fun _ => rfl
      _ = sortDomains (((s.domains.map Domain.sortMembers).map (·.restrictTo keep)).filter
            fun d => !d.isEmpty) := filter_sortDomains _ _
      _ = sortDomains (((s.domains.map (·.restrictTo keep)).map Domain.sortMembers).filter
            fun d => !d.isEmpty) := by
        simp only [List.map_map, Function.comp_def, Domain.restrictTo_sortMembers]
      _ = sortDomains (((s.domains.map (·.restrictTo keep)).filter
            fun d => !d.isEmpty).map Domain.sortMembers) := by
        simp only [List.filter_map, Function.comp_def, Domain.isEmpty_sortMembers]
  simp only [restrictTo, sort, domains]

end Schema
end SchemaTrace
