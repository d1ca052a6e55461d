import SchemaTrace.Proofs.Schema.Members

/-! The part of a schema that keeps some of its members. Domains left without members are dropped
from it; restricting twice keeps what both restrictions keep. -/

namespace SchemaTrace

def Domain.restrictTo (d : Domain) (keep : MemberKind → String → Bool) : Domain :=
  { d with
    commands := d.commands.map (List.filter fun c => keep .command (d.key c.name))
    events := d.events.map (List.filter fun e => keep .event (d.key e.name))
    types := d.types.map (List.filter fun t => keep .type (d.key t.id)) }

/-- A schema with only the members that are to be kept and the domains that have some. -/
def Schema.restrictTo (s : Schema) (keep : MemberKind → String → Bool) : Schema :=
  { s with domains := (s.domains.map (·.restrictTo keep)).filter fun d => !d.isEmpty }

theorem Domain.memberShapes_restrictTo (d : Domain) (keep : MemberKind → String → Bool)
    (kind : MemberKind) :
    (d.restrictTo keep).memberShapes kind =
      (d.memberShapes kind).filter fun m => keep kind (d.key m.1) := by
  cases kind with
  | command =>
    cases held : d.commands <;>
      simp [memberShapes, restrictTo, commandList, held, List.filter_map, Function.comp_def]
  | event =>
    cases held : d.events <;>
      simp [memberShapes, restrictTo, eventList, held, List.filter_map, Function.comp_def]
  | type =>
    cases held : d.types <;>
      simp [memberShapes, restrictTo, typeList, held, List.filter_map, Function.comp_def]

namespace Domain

theorem filter_filter_held {β : Type} (held : Option (List β)) (f g : β → Bool) :
    (held.map (List.filter f)).map (List.filter g) =
      held.map (List.filter fun b => f b && g b) := by
  cases held with
  | none => rfl
  | some list => simp [List.filter_filter, Bool.and_comm]

theorem filter_held_congr {β : Type} {held : Option (List β)} {f g : β → Bool}
    (same : ∀ b ∈ held.getD [], f b = g b) :
    held.map (List.filter f) = held.map (List.filter g) := by
  cases held with
  | none => rfl
  | some list => exact congrArg some (List.filter_congr same)

variable (d : Domain) (p q : MemberKind → String → Bool)

theorem restrictTo_restrictTo :
    (d.restrictTo p).restrictTo q = d.restrictTo fun kind key => p kind key && q kind key := by
  simp only [restrictTo, key, filter_filter_held]

theorem restrictTo_congr
    (same : ∀ kind, ∀ m ∈ d.memberShapes kind, p kind (d.key m.1) = q kind (d.key m.1)) :
    d.restrictTo p = d.restrictTo q := by
  have commands : d.commands.map (List.filter fun c => p .command (d.key c.name)) =
      d.commands.map (List.filter fun c => q .command (d.key c.name)) := by
    apply filter_held_congr
    intro c member
    exact same .command (c.name, _) (List.mem_map.mpr ⟨c, member, rfl⟩)
  have events : d.events.map (List.filter fun e => p .event (d.key e.name)) =
      d.events.map (List.filter fun e => q .event (d.key e.name)) := by
    apply filter_held_congr
    intro e member
    exact same .event (e.name, _) (List.mem_map.mpr ⟨e, member, rfl⟩)
  have types : d.types.map (List.filter fun t => p .type (d.key t.id)) =
      d.types.map (List.filter fun t => q .type (d.key t.id)) := by
    apply filter_held_congr
    intro t member
    exact same .type (t.id, _) (List.mem_map.mpr ⟨t, member, rfl⟩)
  simp only [restrictTo, commands, events, types]

theorem isEmpty_restrictTo_of_isEmpty (empty : d.isEmpty = true) :
    (d.restrictTo p).isEmpty = true := by
  rw [isEmpty_iff] at empty ⊢
  intro kind
  rw [memberShapes_restrictTo, empty kind]
  rfl

end Domain

namespace Schema

theorem flatMap_drop_empty {β : Type} (domains : List Domain) (f : Domain → List β)
    (nothing : ∀ d ∈ domains, d.isEmpty = true → f d = []) :
    (domains.filter fun d => !d.isEmpty).flatMap f = domains.flatMap f := by
  induction domains with
  | nil => rfl
  | cons d rest ih =>
    have tail := ih fun other member => nothing other (List.mem_cons_of_mem _ member)
    cases empty : d.isEmpty with
    | true =>
      have none := nothing d List.mem_cons_self empty
      simp [empty, none, tail]
    | false => simp [empty, tail]

theorem members_restrictTo (s : Schema) (keep : MemberKind → String → Bool) (kind : MemberKind) :
    (s.restrictTo keep).members kind = (s.members kind).filter fun m => keep kind m.1 := by
  simp only [members, restrictTo]
  rw [flatMap_drop_empty]
  · rw [List.flatMap_map, List.filter_flatMap]
    congr 1
    funext d
    rw [Domain.memberShapes_restrictTo, List.filter_map]
    rfl
  · intro d _ empty
    rw [(Domain.isEmpty_iff d).mp empty kind]
    rfl

theorem keys_restrictTo (s : Schema) (keep : MemberKind → String → Bool) (kind : MemberKind) :
    (s.restrictTo keep).keys kind = (s.keys kind).filter (keep kind) := by
  rw [keys_eq_map, keys_eq_map, members_restrictTo, List.filter_map]
  rfl

theorem carries_restrictTo_iff {s : Schema} {keep : MemberKind → String → Bool}
    {kind : MemberKind} {key : String} {shape : Shape} :
    (s.restrictTo keep).Carries kind key shape ↔
      s.Carries kind key shape ∧ keep kind key = true := by
  simp only [Carries, members_restrictTo, List.mem_filter]
  constructor
  · intro given
    rcases given with ⟨shapes, ⟨member, kept⟩, inside⟩
    exact ⟨⟨shapes, member, inside⟩, kept⟩
  · intro given
    rcases given with ⟨⟨shapes, member, inside⟩, kept⟩
    exact ⟨shapes, ⟨member, kept⟩, inside⟩

theorem names_restrictTo (s : Schema) (keep : MemberKind → String → Bool) :
    ((s.restrictTo keep).domains.map (·.name)).Sublist (s.domains.map (·.name)) := by
  have sublist := (List.filter_sublist (p := fun d : Domain => !d.isEmpty)
    (l := s.domains.map (·.restrictTo keep))).map (·.name)
  simpa [restrictTo, Function.comp_def, Domain.restrictTo] using sublist

theorem mem_names_restrictTo_iff {s : Schema} {keep : MemberKind → String → Bool}
    {name : String} : name ∈ (s.restrictTo keep).domains.map (·.name) ↔
      ∃ d ∈ s.domains, d.name = name ∧
        ∃ kind, ∃ m ∈ d.memberShapes kind, keep kind (d.key m.1) = true := by
  have stays (d : Domain) : (!(d.restrictTo keep).isEmpty) = true ↔
      ∃ kind, ∃ m ∈ d.memberShapes kind, keep kind (d.key m.1) = true := by
    rw [Bool.not_eq_true', ← Bool.not_eq_true, Domain.isEmpty_iff]
    simp [Domain.memberShapes_restrictTo, List.filter_eq_nil_iff]
  simp only [restrictTo, List.mem_map, List.mem_filter]
  constructor
  · intro given
    rcases given with ⟨_, ⟨⟨d, inside, rfl⟩, some⟩, rfl⟩
    exact ⟨d, inside, rfl, (stays d).mp some⟩
  · intro given
    rcases given with ⟨d, inside, rfl, some⟩
    exact ⟨_, ⟨⟨d, inside, rfl⟩, (stays d).mpr some⟩, rfl⟩

theorem restrictTo_restrictTo (s : Schema) (p q : MemberKind → String → Bool) :
    (s.restrictTo p).restrictTo q = s.restrictTo fun kind key => p kind key && q kind key := by
  simp only [restrictTo, Schema.mk.injEq, true_and]
  generalize s.domains = domains
  induction domains with
  | nil => rfl
  | cons d rest ih =>
    have twice := d.restrictTo_restrictTo p q
    cases empty : (d.restrictTo p).isEmpty with
    | true =>
      have empty' := Domain.isEmpty_restrictTo_of_isEmpty _ q empty
      rw [twice] at empty'
      simpa [empty, empty'] using ih
    | false => simp [List.filter_cons, empty, twice, ih]

theorem restrictTo_congr (s : Schema) {p q : MemberKind → String → Bool}
    (same : ∀ kind, ∀ key ∈ s.keys kind, p kind key = q kind key) :
    s.restrictTo p = s.restrictTo q := by
  have domains : s.domains.map (·.restrictTo p) = s.domains.map (·.restrictTo q) := by
    apply List.map_congr_left
    intro d inside
    apply Domain.restrictTo_congr
    intro kind m member
    apply same
    rw [keys_eq_map]
    refine List.mem_map.mpr ⟨(d.key m.1, m.2), ?_, rfl⟩
    exact List.mem_flatMap.mpr ⟨d, inside, List.mem_map.mpr ⟨m, member, rfl⟩⟩
  simp only [restrictTo, domains]

end Schema
end SchemaTrace
