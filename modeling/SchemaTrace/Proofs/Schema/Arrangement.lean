import Mathlib.Data.List.Forall2
import SchemaTrace.Proofs.Schema.Order

/-! What sorting a schema comes to. The order of names and that of members put any two of them in
one order, so a schema is arranged in one way, and what is arranged stays as it is. -/

namespace SchemaTrace

/-- One name comes before another: by lower case, or, where that is the same, with the greater
characters first. -/
def NamePrecedes (a b : String) : Prop :=
  Text.lower a.toList < Text.lower b.toList ∨
    Text.lower a.toList = Text.lower b.toList ∧ b.toList < a.toList

/-- One member comes before another: those that are not experimental come first, then those that
are not deprecated, then the earlier name. -/
def MemberKey.Precedes (a b : MemberKey) : Prop :=
  a.experimental = false ∧ b.experimental = true ∨ a.experimental = b.experimental ∧
    (a.deprecated = false ∧ b.deprecated = true ∨ a.deprecated = b.deprecated ∧
      NamePrecedes a.name b.name)

theorem compare_eq_lt_iff_toList_lt {a b : String} :
    compare a b = .lt ↔ a.toList < b.toList := by
  have core : compare a b = compareOfLessAndEq a b := rfl
  rw [core, compareOfLessAndEq_eq_lt, String.lt_iff]

theorem compareNames_eq_lt_iff {a b : String} : compareNames a b = .lt ↔ NamePrecedes a b := by
  simp only [compareNames, Ordering.then_eq_lt, compare_eq_lt_iff_toList_lt, String.toList_ofList,
    Std.compare_eq_iff_eq, String.ofList_inj]
  rfl

theorem compareNames_eq_eq_iff {a b : String} : compareNames a b = .eq ↔ a = b := by
  rw [compareNames, Ordering.then_eq_eq, Std.compare_eq_iff_eq, Std.compare_eq_iff_eq]
  constructor
  · rintro ⟨-, same⟩
    exact same.symm
  · rintro rfl
    exact ⟨rfl, rfl⟩

namespace MemberKey

variable {a b : MemberKey}

theorem compare_eq_lt_iff : compare a b = .lt ↔ a.Precedes b := by
  have flags (x y : Bool) : Ord.compare x y = .lt ↔ x = false ∧ y = true := by
    cases x <;> cases y <;> decide
  simp only [compare, Ordering.then_eq_lt, flags, Std.compare_eq_iff_eq, compareNames_eq_lt_iff]
  rfl

theorem compare_eq_eq_iff : compare a b = .eq ↔ a = b := by
  obtain ⟨experimental, deprecated, name⟩ := a
  simp only [compare, Ordering.then_eq_eq, Std.compare_eq_iff_eq, compareNames_eq_eq_iff]
  constructor
  · rintro ⟨rfl, rfl, rfl⟩
    rfl
  · rintro rfl
    exact ⟨rfl, rfl, rfl⟩

end MemberKey

structure Domain.IsArranged (d arranged : Domain) : Prop where
  commands : Option.Rel (IsStableSort MemberKey.compare Command.key) d.commands arranged.commands
  events : Option.Rel (IsStableSort MemberKey.compare Event.key) d.events arranged.events
  types : Option.Rel (IsStableSort MemberKey.compare TypeDef.key) d.types arranged.types
  others : arranged = { d with
    commands := arranged.commands, events := arranged.events, types := arranged.types }

structure Schema.IsArranged (s arranged : Schema) : Prop where
  version : arranged.version = s.version
  domains : ∃ each, List.Forall₂ Domain.IsArranged s.domains each ∧
    IsStableSort compareNames Domain.name each arranged.domains

section Members

variable {α : Type} {key : α → MemberKey}

theorem rel_isStableSort_iff {held sorted : Option (List α)} :
    Option.Rel (IsStableSort MemberKey.compare key) held sorted ↔
      sorted = held.map (sortMembers key) := by
  cases held with
  | none => cases sorted <;> simp
  | some members =>
    cases sorted with
    | none => simp
    | some sorted =>
      rw [Option.rel_some_some, isStableSort_iff, Option.map_some, Option.some.injEq]
      rfl

theorem sortMembers_sortMembers (members : List α) :
    sortMembers key (sortMembers key members) = sortMembers key members :=
  sortBy_eq_self (inOrder_sortBy members)

theorem map_sortMembers_map_sortMembers (held : Option (List α)) :
    (held.map (sortMembers key)).map (sortMembers key) = held.map (sortMembers key) := by
  rw [Option.map_map]
  congr 1
  funext members
  exact sortMembers_sortMembers members

end Members

namespace Domain

variable {d arranged : Domain}

theorem isArranged_iff : d.IsArranged arranged ↔ arranged = d.sortMembers := by
  constructor
  · intro isArranged
    rw [isArranged.others, rel_isStableSort_iff.mp isArranged.commands,
      rel_isStableSort_iff.mp isArranged.events, rel_isStableSort_iff.mp isArranged.types]
    rfl
  · rintro rfl
    exact ⟨rel_isStableSort_iff.mpr rfl, rel_isStableSort_iff.mpr rfl,
      rel_isStableSort_iff.mpr rfl, rfl⟩

theorem sortMembers_sortMembers (d : Domain) : d.sortMembers.sortMembers = d.sortMembers := by
  simp only [sortMembers, map_sortMembers_map_sortMembers]

end Domain

theorem map_sortMembers_sortDomains (domains : List Domain) :
    (sortDomains (domains.map Domain.sortMembers)).map Domain.sortMembers =
      sortDomains (domains.map Domain.sortMembers) := by
  have settled : (domains.map Domain.sortMembers).map Domain.sortMembers =
      domains.map Domain.sortMembers := by
    rw [List.map_map]
    exact List.map_congr_left fun d _ => d.sortMembers_sortMembers
  rw [map_sortDomains (f := Domain.sortMembers) (fun _ => rfl), settled]

namespace Schema

variable {s arranged : Schema}

theorem forall₂_isArranged_iff {domains each : List Domain} :
    List.Forall₂ Domain.IsArranged domains each ↔ each = domains.map Domain.sortMembers := by
  have arranges : Domain.IsArranged = fun d arranged => d.sortMembers = arranged := by
    funext d arranged
    exact propext (Domain.isArranged_iff.trans eq_comm)
  rw [arranges, ← List.forall₂_map_left_iff, List.forall₂_eq_eq_eq, eq_comm]

theorem isArranged_iff : s.IsArranged arranged ↔ arranged = s.sort := by
  constructor
  · rintro ⟨version, each, arrangedEach, isSort⟩
    rw [forall₂_isArranged_iff.mp arrangedEach, isStableSort_iff] at isSort
    cases arranged
    rw [sort, mk.injEq]
    exact ⟨version, isSort⟩
  · rintro rfl
    exact ⟨rfl, _, forall₂_isArranged_iff.mpr rfl, isStableSort_iff.mpr rfl⟩

theorem sort_sort (s : Schema) : s.sort.sort = s.sort := by
  have domains : sortDomains (s.sort.domains.map Domain.sortMembers) = s.sort.domains := by
    rw [sort, map_sortMembers_sortDomains]
    exact sortBy_eq_self (inOrder_sortBy _)
  rw [sort, domains]

/-- Sorting a schema arranges it and does nothing else. Names stand in one order, in which only
equal ones are level, and so do members; what is sorted stays as it is. -/
theorem sort_exact :
    (∀ s arranged : Schema, s.sort = arranged ↔ s.IsArranged arranged) ∧
      (IsTotalPreorder compareNames ∧ ∀ a b, (compareNames a b = .lt ↔ NamePrecedes a b) ∧
        (compareNames a b = .eq ↔ a = b)) ∧
      (IsTotalPreorder MemberKey.compare ∧ ∀ a b, (MemberKey.compare a b = .lt ↔ a.Precedes b) ∧
        (MemberKey.compare a b = .eq ↔ a = b)) ∧
      ∀ s : Schema, s.sort.sort = s.sort := by
  refine ⟨?_, ⟨isTotalPreorder compareNames, ?_⟩,
    ⟨isTotalPreorder MemberKey.compare, ?_⟩, sort_sort⟩
  · intro s arranged
    rw [isArranged_iff, eq_comm]
  · exact fun a b => ⟨compareNames_eq_lt_iff, compareNames_eq_eq_iff⟩
  · exact fun a b => ⟨MemberKey.compare_eq_lt_iff, MemberKey.compare_eq_eq_iff⟩

end Schema

end SchemaTrace
