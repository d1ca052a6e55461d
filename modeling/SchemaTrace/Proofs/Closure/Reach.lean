import SchemaTrace.Proofs.Model.Lookup
import SchemaTrace.Proofs.Schema.QualifiedName
import SchemaTrace.Proofs.Schema.Restriction

/-! The members that a list of seeds needs. A reference is resolved from the domain of the member
it stands in, the text before the first dot of that member's key. -/

namespace SchemaTrace

open QualifiedName (domainOf resolve)

def Schema.Refers (s : Schema) (kind : MemberKind) (key name : String) : Prop :=
  ∃ shape target, s.Carries kind key shape ∧ shape.Contains (.reference target) ∧
    name = (resolve target (domainOf key)).toString

/-- The members needed: the seeds, and each type that a needed member refers to. -/
inductive Schema.Reaches (s : Schema) (seeds : List Seed) : MemberKind → String → Prop
  | seed {seed : Seed} : seed ∈ seeds → Reaches s seeds seed.kind seed.name
  | refers {kind : MemberKind} {key name : String} :
      Reaches s seeds kind key → s.Refers kind key name → Reaches s seeds .type name

open Classical in
noncomputable def Schema.needs (s : Schema) (seeds : List Seed) (kind : MemberKind)
    (key : String) : Bool :=
  decide (s.Reaches seeds kind key)

@[simp] theorem Schema.needs_eq_true_iff {s : Schema} {seeds : List Seed} {kind : MemberKind}
    {key : String} : s.needs seeds kind key = true ↔ s.Reaches seeds kind key := by
  simp only [Schema.needs, decide_eq_true_eq]

/-- What a closure of the seeds asks for: seeds with a dot that name members of their kind, and
needed types that are declared, without an unknown shape in any needed member. -/
structure Schema.Closes (s : Schema) (seeds : List Seed) : Prop where
  dotted : ∀ seed ∈ seeds, '.' ∈ seed.name.toList
  declared : ∀ seed ∈ seeds, seed.name ∈ s.keys seed.kind
  reached : ∀ name, s.Reaches seeds .type name → name ∈ s.keys .type
  known : ∀ kind key, s.Reaches seeds kind key → ∀ shape, s.Carries kind key shape →
    ∀ tag, ¬shape.Contains (.unknown tag)

namespace Closure

/-- A reference leads from a domain to a type in the set; other shapes ask for nothing. -/
def Leads (types : String → Prop) (origin : String) : Shape → Prop
  | .reference target => types (resolve target origin).toString
  | _ => True

def Known : Shape → Prop
  | .unknown _ => False
  | _ => True

/-- A declared member of known shapes whose references all lead to types in the set. -/
structure Supported (s : Schema) (types : String → Prop) (kind : MemberKind) (key : String) :
    Prop where
  declared : key ∈ s.keys kind
  leads : ∀ shape, s.Carries kind key shape → shape.Everywhere (Leads types (domainOf key))
  known : ∀ shape, s.Carries kind key shape → shape.Everywhere Known

theorem everywhere_leads_iff {types : String → Prop} {origin : String} {shape : Shape} :
    shape.Everywhere (Leads types origin) ↔
      ∀ target, shape.Contains (.reference target) → types (resolve target origin).toString := by
  constructor
  · intro all target within
    exact all _ within
  · intro all inner within
    cases inner with
    | reference target => exact all target within
    | _ => trivial

theorem everywhere_known_iff {shape : Shape} :
    shape.Everywhere Known ↔ ∀ tag, ¬shape.Contains (.unknown tag) := by
  constructor
  · intro all tag within
    exact all _ within
  · intro all inner within
    cases inner with
    | unknown tag => exact all tag within
    | _ => trivial

theorem leads_key {types : String → Prop} {name : QualifiedName}
    (plain : '.' ∉ name.domain.toList) :
    (Shape.reference name.toString).Everywhere (Leads types name.domain) ↔
      types name.toString := by
  have parsed := QualifiedName.parse?_eq_some_iff.mpr ⟨rfl, plain⟩
  have resolved : resolve name.toString name.domain = name :=
    QualifiedName.resolve_of_parse? parsed
  constructor
  · intro leads
    have here := leads.here
    rwa [Leads, resolved] at here
  · intro inside
    refine .of_isLeaf trivial ?_
    rwa [Leads, resolved]

theorem Supported.mono {s : Schema} {types more : String → Prop} {kind : MemberKind}
    {key : String} (supported : Supported s types kind key)
    (subset : ∀ name, types name → more name) : Supported s more kind key where
  declared := supported.declared
  leads shape carried := by
    refine (supported.leads shape carried).imp ?_
    intro inner leads
    cases inner with
    | reference target => exact subset _ leads
    | _ => trivial
  known := supported.known

theorem Supported.mem_of_refers {s : Schema} {types : String → Prop} {kind : MemberKind}
    {key name : String} (supported : Supported s types kind key) (refers : s.Refers kind key name) :
    types name := by
  obtain ⟨shape, target, carried, within, rfl⟩ := refers
  exact everywhere_leads_iff.mp (supported.leads shape carried) target within

end Closure
end SchemaTrace
