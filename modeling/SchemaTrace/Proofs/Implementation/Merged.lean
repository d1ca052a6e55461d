import SchemaTrace.Proofs.Closure.Union
import SchemaTrace.Proofs.Implementation.Session
import SchemaTrace.Proofs.Reference.Extend

/-! The part of a schema that merged implementations use. It is the union of the parts that each of
them uses alone. -/

namespace SchemaTrace

namespace Implementation

variable {schema : Schema} {model : Model} {providers : Nat → Provider}

theorem filterBy_eq_filter (accepted : Model.ofSchema schema = .ok model)
    (references : ReferenceMap) :
    filterBy schema references = model.filter (schema.implementedSeeds references) := by
  rw [filterBy, accepted]
  rfl

theorem unites_filterBy (accepted : Model.ofSchema schema = .ok model) (maps : List ReferenceMap) :
    schema.Unites (maps.map (filterBy schema)) (filterBy schema (maps.foldl .extend .empty)) := by
  have parts : maps.map (filterBy schema) =
      (maps.map schema.implementedSeeds).map model.filter := by
    rw [List.map_map]
    exact List.map_congr_left fun m _ => filterBy_eq_filter accepted m
  rw [filterBy_eq_filter accepted, parts]
  apply Closure.unites_filter accepted
  intro seed
  simp only [List.mem_map, exists_exists_and_eq_and, Schema.mem_implementedSeeds_iff,
    ReferenceMap.isReferenced_foldl_extend]
  constructor
  · intro given
    rcases given with ⟨declared, m, listed, referenced⟩
    exact ⟨m, listed, declared, referenced⟩
  · intro given
    rcases given with ⟨m, listed, declared, referenced⟩
    exact ⟨declared, m, listed, referenced⟩

/-- The order of the maps and how often each is listed make no difference. -/
theorem filterBy_foldl_congr {maps others : List ReferenceMap}
    (same : ∀ m, m ∈ others ↔ m ∈ maps) :
    filterBy schema (others.foldl .extend .empty) =
      filterBy schema (maps.foldl .extend .empty) := by
  have seeds : schema.implementedSeeds (others.foldl .extend .empty) =
      schema.implementedSeeds (maps.foldl .extend .empty) := by
    apply Schema.implementedSeeds_congr
    intro kind name
    rw [Bool.eq_iff_iff, ReferenceMap.isReferenced_foldl_extend,
      ReferenceMap.isReferenced_foldl_extend]
    simp only [same]
  rw [filterBy, filterBy, seeds]

variable {s : Extractors} {children : List Implementation} {found : Implementation → ReferenceMap}

theorem outcome_filter_of_references {i : Implementation} {m : ReferenceMap}
    (given : outcome (references providers schema i) s = .ok m) :
    outcome (filter providers schema i) s = filterBy schema m := by
  rw [outcome_filter, given]
  rfl

theorem outcome_filter_merged
    (given : ∀ child ∈ children,
      outcome (references providers schema child) s = .ok (found child)) :
    outcome (filter providers schema (.merged children)) s =
      filterBy schema ((children.map found).foldl .extend .empty) := by
  apply outcome_filter_of_references
  rw [references, outcome_referencesOf, Except.mapM_eq_ok given]
  rfl

/-- The merged implementation succeeds if and only if each child does, with the union of what the
children give. Neither their order nor listing one twice makes a difference. This is so for any
references put together, and for implementations in a session that give references. -/
theorem filter_merged (accepted : Model.ofSchema schema = .ok model) :
    (∀ maps : List ReferenceMap,
      schema.Unites (maps.map (filterBy schema)) (filterBy schema (maps.foldl .extend .empty)) ∧
      ∀ others : List ReferenceMap, (∀ m, m ∈ others ↔ m ∈ maps) →
        filterBy schema (others.foldl .extend .empty) =
          filterBy schema (maps.foldl .extend .empty)) ∧
    ∀ (providers : Nat → Provider) (s : Extractors) (children : List Implementation),
      (∀ child ∈ children, ∃ m, outcome (references providers schema child) s = .ok m) →
      schema.Unites (children.map fun child => outcome (filter providers schema child) s)
          (outcome (filter providers schema (.merged children)) s) ∧
        ∀ others : List Implementation, (∀ child, child ∈ others ↔ child ∈ children) →
          outcome (filter providers schema (.merged others)) s =
            outcome (filter providers schema (.merged children)) s := by
  constructor
  · intro maps
    exact ⟨unites_filterBy accepted maps, fun others same => filterBy_foldl_congr same⟩
  · intro providers s children succeed
    have exists_found : ∃ found : Implementation → ReferenceMap, ∀ child ∈ children,
        outcome (references providers schema child) s = .ok (found child) := by
      refine ⟨fun child =>
        (outcome (references providers schema child) s).toOption.getD .empty, ?_⟩
      intro child listed
      obtain ⟨m, given⟩ := succeed child listed
      simp only [given, Except.toOption, Option.getD_some]
    obtain ⟨found, given⟩ := exists_found
    have parts : (children.map fun child => outcome (filter providers schema child) s) =
        (children.map found).map (filterBy schema) := by
      rw [List.map_map]
      exact List.map_congr_left fun child listed =>
        outcome_filter_of_references (given child listed)
    constructor
    · rw [parts, outcome_filter_merged given]
      exact unites_filterBy accepted (children.map found)
    · intro others same
      have givenOthers (child : Implementation) (listed : child ∈ others) :
          outcome (references providers schema child) s = .ok (found child) :=
        given child ((same child).mp listed)
      rw [outcome_filter_merged given, outcome_filter_merged givenOthers]
      apply filterBy_foldl_congr
      intro m
      simp only [List.mem_map, same]

def pairSchema : Schema where
  domains := [
    { name := "A"
      commands := some [
        { name := "go", parameters := some [{ name := "at", shape := .reference "T" }] },
        { name := "stop", returns := some [{ name := "at", shape := .reference "B.U" }] }]
      types := some [{ id := "T", shape := .reference "B.U" }] },
    { name := "B", types := some [{ id := "U", shape := .string none }] }]

def pairProviders (slot : Nat) : Provider :=
  let content := if slot = 0 then "m::go(); // @cdp A.go" else "stop"
  MemoryProvider.provider { commit := "c", files := .ofList [("src/agent.c", content)] }

def pairConvention : Convention := { Scanner.agentConvention with scope := { roots := ["src"] } }

/-- The second child reaches its extractor twice. -/
def pairChildren : List Implementation :=
  [.single 0 "goes", .merged [.single 1 "stops", .single 1 "stops"]]

theorem filter_merged_pairChildren : ∃ model x, Model.ofSchema pairSchema = .ok model ∧
    Extractor.ofConvention pairConvention "@cdp" = .ok x ∧
    (pairChildren.map fun child =>
      (outcome (references pairProviders pairSchema child) [x, x]).map (·.referenced .command)) =
        [.ok ["A.go"], .ok ["A.stop"]] ∧
    pairSchema.Unites
      (pairChildren.map fun child => outcome (filter pairProviders pairSchema child) [x, x])
      (outcome (filter pairProviders pairSchema (.merged pairChildren)) [x, x]) := by
  have accepts : ∃ model, Model.ofSchema pairSchema = .ok model := ⟨_, rfl⟩
  have run : ((Extractor.ofConvention pairConvention "@cdp").map fun x =>
      pairChildren.map fun child =>
        (outcome (references pairProviders pairSchema child) [x, x]).map
          (·.referenced .command)) = .ok [.ok ["A.go"], .ok ["A.stop"]] := by
    decide +kernel
  obtain ⟨model, accepted⟩ := accepts
  cases built : Extractor.ofConvention pairConvention "@cdp" with
  | error e =>
    rw [built] at run
    cases run
  | ok x =>
    rw [built] at run
    have names := Except.ok.inj run
    refine ⟨model, x, accepted, rfl, names, ((filter_merged accepted).2 pairProviders _ _ ?_).1⟩
    intro child listed
    have named : (outcome (references pairProviders pairSchema child) [x, x]).map
        (·.referenced .command) ∈ [.ok ["A.go"], .ok ["A.stop"]] :=
      names ▸ List.mem_map_of_mem listed
    cases gives : outcome (references pairProviders pairSchema child) [x, x] with
    | error e => simp [gives, Except.map] at named
    | ok m => exact ⟨m, rfl⟩

end Implementation
end SchemaTrace
