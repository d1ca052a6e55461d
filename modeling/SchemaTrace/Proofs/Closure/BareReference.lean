import SchemaTrace.Proofs.Closure.Exact

/-! Bare references. A reference without a dot leads to the domain that the key of its member begins
with. That is the domain of the member, unless there is a dot in the name of that domain. -/

namespace SchemaTrace

open QualifiedName (domainOf resolve)

namespace Closure

variable {schema : Schema} {model : Model} {seeds : List Seed} {out : Schema}

/-- A bare reference stands, at some depth, in a member that a domain declares and that is kept. -/
structure BareReference (schema out : Schema) (d : Domain) (target : String) : Prop where
  declares : d ∈ schema.domains
  bare : '.' ∉ target.toList
  stands : ∃ kind member shapes, (member, shapes) ∈ d.memberShapes kind ∧
    d.key member ∈ out.keys kind ∧ ∃ shape ∈ shapes, shape.Contains (.reference target)

structure KeepsType (out : Schema) (d : Domain) (target : String) : Prop where
  declared : target ∈ d.memberNames .type
  kept : ∃ part ∈ out.domains, part.name = d.name ∧ target ∈ part.memberNames .type

theorem exists_domain_of_mem_keys {s : Schema} {domain target : String}
    (plain : '.' ∉ domain.toList) (bare : '.' ∉ target.toList)
    (declared : (⟨domain, target⟩ : QualifiedName).toString ∈ s.keys .type) :
    ∃ d ∈ s.domains, d.name = domain ∧ target ∈ d.memberNames .type := by
  rcases List.mem_flatMap.mp declared with ⟨d, inside, listed⟩
  rcases List.mem_map.mp listed with ⟨member, named, same⟩
  have parts := eq_of_key_eq plain bare same
  exact ⟨d, inside, parts.1, parts.2 ▸ named⟩

theorem reaches_of_bareReference (accepted : Model.ofSchema schema = .ok model)
    (run : model.filter seeds = .ok out) {d : Domain} {target : String}
    (reference : BareReference schema out d target) :
    schema.Reaches seeds .type (⟨domainOf d.name, target⟩ : QualifiedName).toString := by
  rcases reference.stands with ⟨kind, member, shapes, listed, kept, shape, inside, within⟩
  have reached := (mem_keys_iff_reaches accepted run).mp kept
  have carried : schema.Carries kind (d.key member) shape :=
    ⟨shapes, Schema.mem_members_of_mem kind reference.declares listed, inside⟩
  refine .refers reached ⟨shape, target, carried, within, ?_⟩
  rw [domainOf_key, QualifiedName.resolve_of_bare reference.bare]

/-- A bare reference that is kept leads to a type of the domain whose name is that of its own
domain up to the first dot, and the type is kept there. That domain is its own exactly if its name
has no dot. -/
theorem bareReference_leads (accepted : Model.ofSchema schema = .ok model)
    (run : model.filter seeds = .ok out) {d : Domain} {target : String}
    (reference : BareReference schema out d target) :
    ∃ home ∈ schema.domains, home.name = domainOf d.name ∧ KeepsType out home target ∧
      (home = d ↔ '.' ∉ d.name.toList) := by
  have reached := reaches_of_bareReference accepted run reference
  have plain := QualifiedName.plain_domainOf d.name
  have declared := ((filter_eq_ok_iff_closes accepted).mp run).1.reached _ reached
  have kept := (mem_keys_iff_reaches accepted run).mpr reached
  rcases exists_domain_of_mem_keys plain reference.bare declared with ⟨home, inside, name, here⟩
  rcases exists_domain_of_mem_keys plain reference.bare kept with
    ⟨part, partInside, partName, there⟩
  refine ⟨home, inside, name, ⟨here, part, partInside, partName.trans name.symm, there⟩, ?_⟩
  constructor
  · rintro rfl
    exact QualifiedName.domainOf_eq_self_iff.mp name.symm
  · intro undotted
    have same : home.name = d.name :=
      name.trans (QualifiedName.domainOf_eq_self_iff.mpr undotted)
    exact List.inj_on_of_nodup_map (Model.unambiguous_of_ofSchema accepted).domains inside
      reference.declares same

/-- A domain with a dot in its name, whose command refers to its type. -/
def dottedDomain : Domain where
  name := "A.B"
  commands := some [{
    name := "go", parameters := some [{ name := "at", shape := .reference "T" }] }]
  types := some [{ id := "T", shape := .integer }]

/-- The domain that the other name begins with has a type of the same name. -/
def dottedSchema : Schema where
  domains := [{ name := "A", types := some [{ id := "T", shape := .string none }] }, dottedDomain]

def dottedPart : Schema where
  domains := [
    { name := "A", types := some [{ id := "T", shape := .string none }] },
    { dottedDomain with types := some [] }]

theorem filter_dottedSchema : ∃ model, Model.ofSchema dottedSchema = .ok model ∧
    model.filter [⟨.command, "A.B.go"⟩] = .ok dottedPart := by
  have accepts : ∃ model, Model.ofSchema dottedSchema = .ok model ∧
      model.type? ⟨"A", "T"⟩ = some { id := "T", shape := .string none } :=
    ⟨_, rfl, rfl⟩
  rcases accepts with ⟨model, accepted, declared⟩
  have key : (⟨"A", "T"⟩ : QualifiedName).toString = "A.T" := by decide
  have own : resolve "T" "A" = ⟨"A", "T"⟩ := by decide
  have run : enterSeeds model (.fill fun _ => []) [⟨.command, "A.B.go"⟩] =
      .ok ⟨["A.B.go"], [], ["A.T"]⟩ := by
    apply (enterSeeds_cons_eq_ok_iff accepted).mpr
    have member : ("A.B.go", [.reference "T"]) ∈ dottedSchema.members .command :=
      List.mem_singleton.mpr rfl
    have origin : domainOf "A.B.go" = "A" := by decide
    have walked : walk model [] [(.reference "T", "A")] = .ok ["A.T"] := by
      rw [walk_of_declared own List.not_mem_nil declared, walk, walk, key]
    refine ⟨by decide, _, .member (by decide) List.not_mem_nil member ?_, rfl⟩
    rw [List.map_singleton, origin]
    exact walked
  refine ⟨model, accepted, filter_eq_ok_iff.mpr ⟨_, run, ?_⟩⟩
  rw [(Model.indexes_of_ofSchema accepted).1]
  rfl

theorem bareReference_dottedDomain : BareReference dottedSchema dottedPart dottedDomain "T" where
  declares := List.mem_cons_of_mem _ List.mem_cons_self
  bare := by decide
  stands := by
    have kept : dottedPart.keys .command = ["A.B.go"] := rfl
    refine ⟨.command, "go", [.reference "T"], List.mem_singleton.mpr rfl, ?_, .reference "T",
      List.mem_singleton.mpr rfl, .self _⟩
    rw [kept]
    exact List.mem_singleton.mpr rfl

theorem bareReference_leads_dottedDomain : ∃ model, Model.ofSchema dottedSchema = .ok model ∧
    model.filter [⟨.command, "A.B.go"⟩] = .ok dottedPart ∧
    BareReference dottedSchema dottedPart dottedDomain "T" ∧
    ∃ home ∈ dottedSchema.domains, home.name = "A" ∧ KeepsType dottedPart home "T" ∧
      home ≠ dottedDomain := by
  rcases filter_dottedSchema with ⟨model, accepted, run⟩
  rcases bareReference_leads accepted run bareReference_dottedDomain with
    ⟨home, inside, name, keeps, own⟩
  have before : domainOf dottedDomain.name = "A" := by decide
  have dotted : '.' ∈ dottedDomain.name.toList := by decide
  exact ⟨model, accepted, run, bareReference_dottedDomain, home, inside, name.trans before, keeps,
    fun same => own.mp same dotted⟩

theorem bareReference_strays : ∃ model, Model.ofSchema dottedSchema = .ok model ∧
    model.filter [⟨.command, "A.B.go"⟩] = .ok dottedPart ∧
    BareReference dottedSchema dottedPart dottedDomain "T" ∧
    "T" ∈ dottedDomain.memberNames .type ∧ ¬KeepsType dottedPart dottedDomain "T" := by
  rcases filter_dottedSchema with ⟨model, accepted, run⟩
  refine ⟨model, accepted, run, bareReference_dottedDomain, List.mem_singleton.mpr rfl, ?_⟩
  rintro ⟨-, part, inside, name, named⟩
  simp only [dottedPart, List.mem_cons, List.not_mem_nil, or_false] at inside
  rcases inside with rfl | rfl
  · exact absurd name (by decide)
  · cases named

end Closure
end SchemaTrace
