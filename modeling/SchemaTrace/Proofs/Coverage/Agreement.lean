import Mathlib.Data.List.Perm.Subperm
import SchemaTrace.Coverage
import SchemaTrace.Proofs.Closure.Exact
import SchemaTrace.Proofs.Closure.Failure
import SchemaTrace.Proofs.Evidence.Collect
import SchemaTrace.Proofs.Reference.Extend

/-! How much of a schema is implemented, by the statistics and by the closure. The statistics read
the names off the references; the seeds are the members of the schema that have references. -/

namespace SchemaTrace

open QualifiedName (domainOf)

variable {schema : Schema} {model : Model} {references : ReferenceMap}

def ReferenceMap.NamesMembers (m : ReferenceMap) (s : Schema) : Prop :=
  ∀ kind, ∀ name ∈ (m.get kind).keys, name ∈ s.keys kind

theorem ReferenceMap.namesMembers_of_extract {s : Scanner} {snapshot : Snapshot}
    (run : s.extract (s.indexComments snapshot) snapshot schema = .ok references) :
    references.NamesMembers schema := by
  intro kind name listed
  obtain ⟨value, found⟩ := SortedMap.mem_keys_iff.mp listed
  exact (Scanner.contains_extract run kind name).mp (by rw [SortedMap.contains, found]; rfl)

def Schema.implementedKeys (s : Schema) (references : ReferenceMap) (kind : MemberKind) :
    List String :=
  (s.keys kind).filter (references.isReferenced kind)

namespace Schema

theorem get_counts (s : Schema) (kind : MemberKind) :
    s.counts.get kind = (s.keys kind).length := by
  cases kind <;> simp [counts, MemberCounts.get, keys, Domain.memberNames, List.length_flatMap]

theorem filter_implementedSeeds (s : Schema) (references : ReferenceMap) (kind : MemberKind) :
    (s.implementedSeeds references).filter (·.kind = kind) =
      (s.implementedKeys references kind).map (⟨kind, ·⟩) := by
  cases kind <;>
    simp [implementedSeeds, implementedKeys, MemberKind.all, List.filter_map, Function.comp_def]

end Schema

/-- Both ways to the implemented members give the same names, in different orders. -/
theorem ReferenceMap.referenced_perm (distinct : ∀ kind, (schema.keys kind).Nodup)
    (named : references.NamesMembers schema) (kind : MemberKind) :
    (references.referenced kind).Perm (schema.implementedKeys references kind) := by
  have listed : (schema.implementedKeys references kind).Nodup := (distinct kind).filter _
  apply (List.perm_ext_iff_of_nodup (references.nodup_referenced kind) listed).mpr
  intro name
  rw [mem_referenced_iff, Schema.implementedKeys, List.mem_filter]
  constructor
  · intro referenced
    exact ⟨named kind name (mem_keys_of_isReferenced referenced), referenced⟩
  · exact fun both => both.2

theorem ReferenceMap.get_counts (distinct : ∀ kind, (schema.keys kind).Nodup)
    (named : references.NamesMembers schema) (kind : MemberKind) :
    references.counts.get kind = (schema.implementedKeys references kind).length := by
  rw [← (referenced_perm distinct named kind).length_eq]
  cases kind <;> rfl

theorem domainOfName_eq_domainOf (name : String) : domainOfName name = domainOf name := by
  rw [domainOfName]
  cases parsed : QualifiedName.parse? name with
  | some q =>
    obtain ⟨rfl, plain⟩ := QualifiedName.parse?_eq_some_iff.mp parsed
    exact (QualifiedName.domainOf_toString plain).symm
  | none =>
    have plain : '.' ∉ name.toList := by
      intro dotted
      obtain ⟨q, found⟩ := QualifiedName.exists_parse?_eq_some_iff.mpr dotted
      simp [parsed] at found
    exact (QualifiedName.domainOf_eq_self_iff.mpr plain).symm

theorem nodup_eraseDups {α : Type} [BEq α] [LawfulBEq α] (list : List α) :
    list.eraseDups.Nodup := by
  cases list with
  | nil => exact .nil
  | cons a rest =>
    rw [List.eraseDups_cons, List.nodup_cons]
    refine ⟨?_, nodup_eraseDups _⟩
    simp [List.mem_eraseDups]
termination_by list.length
decreasing_by exact Nat.lt_succ_of_le (List.length_filter_le _ rest)

theorem ReferenceMap.domains_counts_le (named : references.NamesMembers schema) :
    references.counts.domains ≤ schema.counts.domains := by
  have inside : (MemberKind.all.flatMap fun kind =>
      (references.referenced kind).map domainOfName).eraseDups ⊆
        (schema.domains.filter fun d => !d.isEmpty).map (domainOf ·.name) := by
    intro domain listed
    obtain ⟨kind, -, inKind⟩ := List.mem_flatMap.mp (List.mem_eraseDups.mp listed)
    obtain ⟨name, referenced, rfl⟩ := List.mem_map.mp inKind
    have declared := named kind name (mem_keys_of_isReferenced (mem_referenced_iff.mp referenced))
    obtain ⟨d, holds, member, inDomain, rfl⟩ := Model.exists_declared declared
    have occupied : ¬d.isEmpty = true := by
      intro empty
      rw [Domain.memberNames_eq_map, (Domain.isEmpty_iff d).mp empty kind] at inDomain
      cases inDomain
    rw [domainOfName_eq_domainOf, domainOf_key]
    exact List.mem_map.mpr ⟨d, List.mem_filter.mpr ⟨holds, by simpa using occupied⟩, rfl⟩
  calc
    references.counts.domains ≤
        ((schema.domains.filter fun d => !d.isEmpty).map (domainOf ·.name)).length :=
      ((nodup_eraseDups _).subperm inside).length_le
    _ = schema.counts.domains := List.length_map _

theorem needs_of_isReferenced {kind : MemberKind} {key : String} (declared : key ∈ schema.keys kind)
    (referenced : references.isReferenced kind key = true) :
    schema.needs (schema.implementedSeeds references) kind key = true := by
  have seed : ⟨kind, key⟩ ∈ schema.implementedSeeds references :=
    Schema.mem_implementedSeeds_iff.mpr ⟨declared, referenced⟩
  exact Schema.needs_eq_true_iff.mpr (.seed seed)

theorem length_implementedKeys_le (accepted : Model.ofSchema schema = .ok model) {out : Schema}
    (run : model.filter (schema.implementedSeeds references) = .ok out) (kind : MemberKind) :
    (schema.implementedKeys references kind).length ≤ (out.keys kind).length := by
  obtain ⟨-, rfl⟩ := (Closure.filter_eq_ok_iff_closes accepted).mp run
  rw [Schema.implementedKeys, Schema.keys_restrictTo, ← List.countP_eq_length_filter,
    ← List.countP_eq_length_filter]
  exact List.countP_mono_left fun _ declared referenced => needs_of_isReferenced declared referenced

theorem keys_filter_implementedSeeds (accepted : Model.ofSchema schema = .ok model) {out : Schema}
    (run : model.filter (schema.implementedSeeds references) = .ok out) {kind : MemberKind}
    (notType : kind ≠ .type) : out.keys kind = schema.implementedKeys references kind := by
  obtain ⟨-, rfl⟩ := (Closure.filter_eq_ok_iff_closes accepted).mp run
  rw [Schema.implementedKeys, Schema.keys_restrictTo]
  apply List.filter_congr
  intro key declared
  rw [Bool.eq_iff_iff]
  constructor
  · intro needed
    have reached := Schema.needs_eq_true_iff.mp needed
    exact (Schema.mem_implementedSeeds_iff.mp
      ((Closure.reaches_iff_of_ne_type notType).mp reached)).2
  · exact needs_of_isReferenced declared

namespace Coverage

/-- The statistics of a closure against those of the whole schema. -/
structure Carried (whole closure : Coverage) : Prop where
  commands : closure.total.commands = whole.implemented.commands
  events : closure.total.events = whole.implemented.events
  types : whole.implemented.types ≤ closure.total.types
  implemented : closure.implemented = whole.implemented

structure Agrees (name : String) (schema : Schema) (model : Model) (references : ReferenceMap) :
    Prop where
  counted : ∀ kind, (compute name schema references).implemented.get kind =
    ((schema.implementedSeeds references).filter (·.kind = kind)).length
  bounded : ∀ kind, (compute name schema references).implemented.get kind ≤
    (compute name schema references).total.get kind
  domains : (compute name schema references).implemented.domains ≤
    (compute name schema references).total.domains
  failures : ∀ seeds ⊆ schema.implementedSeeds references, ∀ e,
    model.filter seeds = .error e → Closure.TypeFailure e
  closure : ∀ out, model.filter (schema.implementedSeeds references) = .ok out →
    Carried (compute name schema references) (compute name out references)

theorem carried_of_filter (accepted : Model.ofSchema schema = .ok model)
    (named : references.NamesMembers schema) (name : String) {out : Schema}
    (run : model.filter (schema.implementedSeeds references) = .ok out) :
    Carried (compute name schema references) (compute name out references) := by
  have distinct := (Model.unambiguous_of_ofSchema accepted).members
  have counted := ReferenceMap.get_counts distinct named
  have exactly (kind : MemberKind) (notType : kind ≠ .type) :
      out.counts.get kind = references.counts.get kind := by
    rw [out.get_counts, keys_filter_implementedSeeds accepted run notType, counted]
  have types : references.counts.get .type ≤ out.counts.get .type :=
    calc
      references.counts.get .type = (schema.implementedKeys references .type).length :=
        counted .type
      _ ≤ (out.keys .type).length := length_implementedKeys_le accepted run .type
      _ = out.counts.get .type := (out.get_counts .type).symm
  exact ⟨exactly .command (by decide), exactly .event (by decide), types, rfl⟩

/-- For a schema that has a model and references to its members, the implemented members of each
kind are as many as the seeds of that kind and at most those of the schema, in at most its domains.
The seeds fail for no reason but a type they need; their closure has the implemented commands and
events and at least the implemented types. -/
theorem agrees_of_namesMembers (accepted : Model.ofSchema schema = .ok model)
    (named : references.NamesMembers schema) (name : String) :
    Agrees name schema model references := by
  have distinct := (Model.unambiguous_of_ofSchema accepted).members
  have counted := ReferenceMap.get_counts distinct named
  constructor
  · intro kind
    rw [schema.filter_implementedSeeds, List.length_map]
    exact counted kind
  · intro kind
    calc
      references.counts.get kind = (schema.implementedKeys references kind).length := counted kind
      _ ≤ (schema.keys kind).length := List.length_filter_le _ _
      _ = schema.counts.get kind := (schema.get_counts kind).symm
  · exact ReferenceMap.domains_counts_le named
  · intro seeds inside e failed
    refine Closure.typeFailure_of_filter accepted (fun seed member => ?_) failed
    exact (Schema.mem_implementedSeeds_iff.mp (inside member)).1
  · intro out run
    exact carried_of_filter accepted named name run

def cyclicReferences : ReferenceMap where
  commands := .ofList [("A.go", [.occurrence { position := ⟨1, 1⟩ }])]
  events := .empty
  types := .ofList [("B.V", [])]

theorem agrees_cyclicReferences : ∃ model, Model.ofSchema Closure.cyclicSchema = .ok model ∧
    cyclicReferences.NamesMembers Closure.cyclicSchema ∧
    Carried (compute "A" Closure.cyclicSchema cyclicReferences)
      (compute "A" Closure.cyclicPart cyclicReferences) := by
  obtain ⟨model, accepted, run⟩ := Closure.filter_cyclicSchema
  have named : cyclicReferences.NamesMembers Closure.cyclicSchema := by
    intro kind
    cases kind <;> decide
  have seeds : Closure.cyclicSchema.implementedSeeds cyclicReferences = [⟨.command, "A.go"⟩] := by
    decide
  have agrees := agrees_of_namesMembers accepted named "A"
  exact ⟨model, accepted, named, agrees.closure _ (seeds ▸ run)⟩

end Coverage
end SchemaTrace
