import SchemaTrace.Proofs.Order.StableSort
import SchemaTrace.Schema.Stable

/-! The order of schemas. Names and members are compared by total preorders, so sorting commutes
with what drops domains and members and with what changes them without touching their names. -/

namespace SchemaTrace

instance : Std.TransCmp compareNames :=
  inferInstanceAs (Std.TransCmp (compareLex
    (compareOn fun name : String => String.ofList (Text.lower name.toList))
    fun a b => compare b a))

instance : Std.TransCmp fun a b : MemberKey => compareNames a.name b.name where
  eq_swap {a b} := @Std.OrientedCmp.eq_swap _ compareNames _ a.name b.name
  isLE_trans {a b c} := @Std.TransCmp.isLE_trans _ compareNames _ a.name b.name c.name

instance : Std.TransCmp MemberKey.compare :=
  inferInstanceAs (Std.TransCmp (compareLex (compareOn MemberKey.experimental)
    (compareLex (compareOn MemberKey.deprecated)
      fun a b : MemberKey => compareNames a.name b.name)))

section Members

variable {α : Type} (key : α → MemberKey)

theorem sortMembers_perm (members : List α) : (sortMembers key members).Perm members :=
  sortBy_perm MemberKey.compare key members

theorem filter_sortMembers (p : α → Bool) (members : List α) :
    (sortMembers key members).filter p = sortMembers key (members.filter p) :=
  filter_sortBy p members

theorem keepStable_sortMembers (members : List α) :
    keepStable key (sortMembers key members) = sortMembers key (keepStable key members) :=
  filter_sortMembers key _ members

theorem keepStable_keepStable (members : List α) :
    keepStable key (keepStable key members) = keepStable key members := by
  rw [keepStable, keepStable, List.filter_filter]
  congr 1
  funext m
  exact Bool.and_self _

theorem getD_sortMembers (held : Option (List α)) :
    (held.map (sortMembers key)).getD [] = sortMembers key (held.getD []) := by
  cases held with
  | none => exact List.mergeSort_nil.symm
  | some members => rfl

theorem filter_sortMembers_held (p : α → Bool) (held : Option (List α)) :
    (held.map (sortMembers key)).map (List.filter p) =
      (held.map (List.filter p)).map (sortMembers key) := by
  cases held with
  | none => rfl
  | some members => exact congrArg some (filter_sortMembers key p members)

end Members

section Domains

theorem sortDomains_perm (domains : List Domain) : (sortDomains domains).Perm domains :=
  sortBy_perm compareNames Domain.name domains

theorem filter_sortDomains (p : Domain → Bool) (domains : List Domain) :
    (sortDomains domains).filter p = sortDomains (domains.filter p) :=
  filter_sortBy p domains

theorem map_sortDomains {f : Domain → Domain} (kept : ∀ d, (f d).name = d.name)
    (domains : List Domain) : (sortDomains domains).map f = sortDomains (domains.map f) :=
  map_sortBy kept domains

end Domains

namespace Domain

theorem sortMembers_stable (d : Domain) : d.sortMembers.stable = d.stable.sortMembers := by
  have events : keepStable Event.key d.sortMembers.eventList =
      SchemaTrace.sortMembers Event.key (keepStable Event.key d.eventList) := by
    rw [eventList, eventList, sortMembers, getD_sortMembers, keepStable_sortMembers]
  have types : keepStable TypeDef.key d.sortMembers.typeList =
      SchemaTrace.sortMembers TypeDef.key (keepStable TypeDef.key d.typeList) := by
    rw [typeList, typeList, sortMembers, getD_sortMembers, keepStable_sortMembers]
  have commands : d.sortMembers.commands.map (keepStable Command.key) =
      (d.commands.map (keepStable Command.key)).map (SchemaTrace.sortMembers Command.key) :=
    filter_sortMembers_held Command.key _ d.commands
  rw [stable, events, types, commands]
  rfl

theorem stable_stable (d : Domain) : d.stable.stable = d.stable := by
  have events : keepStable Event.key d.stable.eventList = keepStable Event.key d.eventList :=
    keepStable_keepStable Event.key d.eventList
  have types : keepStable TypeDef.key d.stable.typeList = keepStable TypeDef.key d.typeList :=
    keepStable_keepStable TypeDef.key d.typeList
  have commands : d.stable.commands.map (keepStable Command.key) = d.stable.commands := by
    cases held : d.commands with
    | none => simp [stable, held]
    | some list => simp [stable, held, keepStable_keepStable]
  rw [stable, events, types, commands]
  rfl

theorem isStable_sortMembers (d : Domain) : d.sortMembers.isStable = d.isStable := rfl

theorem isStable_stable (d : Domain) : d.stable.isStable = d.isStable := rfl

end Domain
end SchemaTrace
