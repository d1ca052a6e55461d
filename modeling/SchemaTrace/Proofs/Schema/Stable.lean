import SchemaTrace.Proofs.Schema.Members
import SchemaTrace.Schema.Stable

/-! The members of the stable part of a schema. They are members of the whole, in the same order and
with the same shapes. -/

namespace SchemaTrace

variable {s : Schema} {kind : MemberKind} {key : String} {shape : Shape}

theorem Domain.memberShapes_stable_sublist (d : Domain) (kind : MemberKind) :
    (d.stable.memberShapes kind).Sublist (d.memberShapes kind) := by
  cases kind with
  | command =>
    cases held : d.commands with
    | none => simp [memberShapes, commandList, stable, held]
    | some commands =>
      simp only [memberShapes, commandList, stable, held, Option.map_some, Option.getD_some]
      exact List.filter_sublist.map _
  | event => exact List.filter_sublist.map _
  | type => exact List.filter_sublist.map _

namespace Schema

theorem members_stable_sublist (s : Schema) (kind : MemberKind) :
    (s.stable.members kind).Sublist (s.members kind) := by
  simp only [members, stable]
  induction s.domains with
  | nil => exact .slnil
  | cons d rest ih =>
    have own : ((d.stable.memberShapes kind).map fun m => (d.stable.key m.1, m.2)).Sublist
        ((d.memberShapes kind).map fun m => (d.key m.1, m.2)) :=
      (d.memberShapes_stable_sublist kind).map _
    cases stays : d.isStable with
    | true =>
      simp only [List.filter_cons_of_pos stays, List.map_cons, List.flatMap_cons]
      exact own.append ih
    | false =>
      have dropped : (d :: rest).filter Domain.isStable = rest.filter Domain.isStable := by
        simp [stays]
      rw [dropped, List.flatMap_cons]
      exact ih.trans (List.sublist_append_right _ _)

theorem keys_stable_sublist (s : Schema) (kind : MemberKind) :
    (s.stable.keys kind).Sublist (s.keys kind) := by
  rw [keys_eq_map, keys_eq_map]
  exact (s.members_stable_sublist kind).map _

theorem names_stable_sublist (s : Schema) :
    (s.stable.domains.map (·.name)).Sublist (s.domains.map (·.name)) := by
  have names : s.stable.domains.map (·.name) =
      (s.domains.filter Domain.isStable).map (·.name) := by
    rw [stable, List.map_map]
    rfl
  rw [names]
  exact List.filter_sublist.map _

theorem carries_of_stable (carried : s.stable.Carries kind key shape) :
    s.Carries kind key shape := by
  obtain ⟨shapes, member, inside⟩ := carried
  exact ⟨shapes, (s.members_stable_sublist kind).subset member, inside⟩

end Schema
end SchemaTrace
