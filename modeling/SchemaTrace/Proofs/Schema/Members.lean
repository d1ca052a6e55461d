import Mathlib.Data.List.Nodup
import SchemaTrace.Proofs.Schema.Shape
import SchemaTrace.Seeds

/-! The members of a schema by kind and key, each with the shapes that stand in it. -/

namespace SchemaTrace

/-- The members of one kind, each with the shapes of its parameters and returns; a type carries
its definition. -/
def Domain.memberShapes (d : Domain) : MemberKind → List (String × List Shape)
  | .command => d.commandList.map fun c =>
      (c.name, Closure.parameters c.parameters ++ Closure.parameters c.returns)
  | .event => d.eventList.map fun e => (e.name, Closure.parameters e.parameters)
  | .type => d.typeList.map fun t => (t.id, [t.shape])

def Schema.members (s : Schema) (kind : MemberKind) : List (String × List Shape) :=
  s.domains.flatMap fun d => (d.memberShapes kind).map fun m => (d.key m.1, m.2)

/-- A shape stands at the top of a member's parameters, returns or definition. -/
def Schema.Carries (s : Schema) (kind : MemberKind) (key : String) (shape : Shape) : Prop :=
  ∃ shapes, (key, shapes) ∈ s.members kind ∧ shape ∈ shapes

theorem Domain.memberNames_eq_map (d : Domain) (kind : MemberKind) :
    d.memberNames kind = (d.memberShapes kind).map (·.1) := by
  cases kind <;> simp [memberNames, memberShapes, Function.comp_def]

theorem Domain.isEmpty_iff (d : Domain) :
    d.isEmpty = true ↔ ∀ kind, d.memberShapes kind = [] := by
  constructor
  · intro empty kind
    simp only [isEmpty, Bool.and_eq_true, List.isEmpty_iff] at empty
    obtain ⟨⟨commands, events⟩, types⟩ := empty
    cases kind <;> simp [memberShapes, commands, events, types]
  · intro none
    have commands := none .command
    have events := none .event
    have types := none .type
    simp only [memberShapes, List.map_eq_nil_iff] at commands events types
    simp [isEmpty, commands, events, types]

namespace Schema

theorem keys_eq_map (s : Schema) (kind : MemberKind) :
    s.keys kind = (s.members kind).map (·.1) := by
  simp [keys, members, List.map_flatMap, Domain.memberNames_eq_map, Function.comp_def]

theorem mem_keys_iff {s : Schema} {kind : MemberKind} {key : String} :
    key ∈ s.keys kind ↔ ∃ shapes, (key, shapes) ∈ s.members kind := by
  rw [keys_eq_map]
  simp

theorem dot_mem_of_mem_keys {s : Schema} {kind : MemberKind} {key : String}
    (declared : key ∈ s.keys kind) : '.' ∈ key.toList := by
  obtain ⟨d, -, inside⟩ := List.mem_flatMap.mp declared
  obtain ⟨name, -, rfl⟩ := List.mem_map.mp inside
  simp [Domain.key, String.toList_append]

theorem shapes_unique {s : Schema} {kind : MemberKind} (distinct : (s.keys kind).Nodup)
    {key : String} {a b : List Shape} (first : (key, a) ∈ s.members kind)
    (second : (key, b) ∈ s.members kind) : a = b := by
  rw [keys_eq_map] at distinct
  have same := List.inj_on_of_nodup_map distinct first second rfl
  exact (Prod.mk.inj same).2

theorem carries_iff_of_mem {s : Schema} {kind : MemberKind} (distinct : (s.keys kind).Nodup)
    {key : String} {shapes : List Shape} (member : (key, shapes) ∈ s.members kind)
    {shape : Shape} : s.Carries kind key shape ↔ shape ∈ shapes := by
  constructor
  · intro given
    rcases given with ⟨others, member', inside⟩
    rwa [shapes_unique distinct member member']
  · intro inside
    exact ⟨shapes, member, inside⟩

theorem mem_members_of_mem {s : Schema} (kind : MemberKind) {d : Domain}
    {m : String × List Shape} (inside : d ∈ s.domains) (member : m ∈ d.memberShapes kind) :
    (d.key m.1, m.2) ∈ s.members kind :=
  List.mem_flatMap.mpr ⟨d, inside, List.mem_map.mpr ⟨m, member, rfl⟩⟩

end Schema
end SchemaTrace
