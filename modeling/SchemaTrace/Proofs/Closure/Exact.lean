import SchemaTrace.Proofs.Closure.Entered

/-! The closure is exact. It succeeds if and only if the seeds can be closed, and then it keeps
the members they need and no others. -/

namespace SchemaTrace

open QualifiedName (domainOf resolve)

namespace Closure

variable {schema : Schema} {model : Model} {seeds : List Seed}

theorem reaches_iff_of_ne_type {kind : MemberKind} (notType : kind ≠ .type) {key : String} :
    schema.Reaches seeds kind key ↔ ⟨kind, key⟩ ∈ seeds := by
  constructor
  · intro reached
    cases reached with
    | seed member => exact member
    | refers => exact absurd rfl notType
  · intro member
    exact .seed member

theorem closed_reaches (schema : Schema) (seeds : List Seed) :
    Closed schema (schema.Reaches seeds) :=
  fun _ _ reached _ refers => .refers reached refers

theorem sound_of_closes (closes : schema.Closes seeds) : Sound schema (schema.Reaches seeds) where
  declared kind key reached := by
    cases reached with
    | seed member => exact closes.declared _ member
    | refers from_ refers => exact closes.reached key (.refers from_ refers)
  known kind key reached shape carried :=
    everywhere_known_iff.mpr (closes.known kind key reached shape carried)

/-- What is entered for the seeds: the members they need, each of them supported. -/
theorem entered_iff_reaches (accepted : Model.ofSchema schema = .ok model) {entered : Entered}
    (run : enterSeeds model (.fill fun _ => []) seeds = .ok entered) (kind : MemberKind)
    (key : String) : key ∈ entered.get kind ↔ schema.Reaches seeds kind key := by
  have nothing (kind : MemberKind) (key : String) :
      key ∉ (ByKind.fill fun _ => ([] : List String)).get kind := by
    rw [ByKind.get_fill]
    exact List.not_mem_nil
  obtain ⟨added, inside⟩ := added_of_enterSeeds accepted seeds run
  constructor
  · have old (kind : MemberKind) (key : String)
        (member : key ∈ (ByKind.fill fun _ => ([] : List String)).get kind) :
        schema.Reaches seeds kind key := absurd member (nothing kind key)
    exact needed_of_enterSeeds accepted (closed_reaches schema seeds) seeds
      (fun seed member => .seed member) old run kind key
  · intro reached
    induction reached with
    | seed member => exact (inside _ member).2
    | refers _ refers ih =>
      exact (added.supported _ _ ih (nothing _ _)).mem_of_refers refers

theorem closes_of_enterSeeds (accepted : Model.ofSchema schema = .ok model) {entered : Entered}
    (run : enterSeeds model (.fill fun _ => []) seeds = .ok entered) : schema.Closes seeds := by
  obtain ⟨added, inside⟩ := added_of_enterSeeds accepted seeds run
  have supported (kind : MemberKind) (key : String) (reached : schema.Reaches seeds kind key) :
      Supported schema (· ∈ entered.types) kind key := by
    apply added.supported kind key ((entered_iff_reaches accepted run kind key).mpr reached)
    rw [ByKind.get_fill]
    exact List.not_mem_nil
  constructor
  · exact fun seed member => (inside seed member).1
  · exact fun seed member => (supported _ _ (.seed member)).declared
  · exact fun name reached => (supported _ _ reached).declared
  · intro kind key reached shape carried
    exact everywhere_known_iff.mp ((supported kind key reached).known shape carried)

theorem filter_eq_ok_iff {out : Schema} :
    model.filter seeds = .ok out ↔ ∃ entered,
      enterSeeds model (.fill fun _ => []) seeds = .ok entered ∧
        out = restrict model.schema entered := by
  simp only [Model.filter, bind, Except.bind]
  cases run : enterSeeds model (.fill fun _ => []) seeds with
  | error e => simp
  | ok entered => simp [pure, Except.pure, eq_comm]

theorem filter_type (model : Model) {text : String} {name : QualifiedName}
    (parsed : QualifiedName.parse? text = some name) :
    model.filter [⟨.type, text⟩] =
      (walk model [] [(.reference name.toString, name.domain)]).map fun types =>
        restrict model.schema ⟨[], [], types⟩ := by
  simp only [Model.filter, enterSeeds, enterSeed, parsed, enterType]
  change _ = Except.map _ (walk model (ByKind.fill fun _ => []).types _)
  cases walk model (ByKind.fill fun _ => []).types [(.reference name.toString, name.domain)] <;> rfl

theorem restrict_eq_restrictTo (schema : Schema) (entered : Entered) :
    restrict schema entered =
      schema.restrictTo fun kind key => decide (key ∈ entered.get kind) := rfl

theorem filter_eq_ok_iff_closes (accepted : Model.ofSchema schema = .ok model) {out : Schema} :
    model.filter seeds = .ok out ↔
      schema.Closes seeds ∧ out = schema.restrictTo (schema.needs seeds) := by
  have same := (Model.indexes_of_ofSchema accepted).1
  have restricted {entered : Entered}
      (run : enterSeeds model (.fill fun _ => []) seeds = .ok entered) :
      restrict model.schema entered = schema.restrictTo (schema.needs seeds) := by
    rw [same, restrict_eq_restrictTo]
    apply Schema.restrictTo_congr
    intro kind key _
    rw [Bool.eq_iff_iff, decide_eq_true_iff, Schema.needs_eq_true_iff]
    exact entered_iff_reaches accepted run kind key
  rw [filter_eq_ok_iff]
  constructor
  · intro given
    rcases given with ⟨entered, run, restrictedTo⟩
    exact ⟨closes_of_enterSeeds accepted run, restrictedTo.trans (restricted run)⟩
  · intro given
    rcases given with ⟨closes, restrictedTo⟩
    obtain ⟨entered, run⟩ := exists_enterSeeds accepted (closed_reaches schema seeds)
      (sound_of_closes closes) seeds (fun seed member => ⟨closes.dotted seed member, .seed member⟩)
      (.fill fun _ => [])
    exact ⟨entered, run, restrictedTo.trans (restricted run).symm⟩

theorem exists_filter_eq_ok_iff (accepted : Model.ofSchema schema = .ok model) :
    (∃ out, model.filter seeds = .ok out) ↔ schema.Closes seeds := by
  simp [filter_eq_ok_iff_closes accepted]

theorem mem_keys_iff_reaches (accepted : Model.ofSchema schema = .ok model) {out : Schema}
    (run : model.filter seeds = .ok out) {kind : MemberKind} {key : String} :
    key ∈ out.keys kind ↔ schema.Reaches seeds kind key := by
  obtain ⟨closes, rfl⟩ := (filter_eq_ok_iff_closes accepted).mp run
  rw [Schema.keys_restrictTo, List.mem_filter, Schema.needs_eq_true_iff]
  constructor
  · exact fun member => member.2
  · exact fun reached => ⟨(sound_of_closes closes).declared kind key reached, reached⟩

/-- The closure of a schema that has a model succeeds if and only if the seeds can be closed. It
keeps the commands and events among the seeds and the types the seeds reach, with all that the
schema says of them and of their domains, in the order of the schema. -/
theorem filter_exact (accepted : Model.ofSchema schema = .ok model) (seeds : List Seed) :
    ((∃ out, model.filter seeds = .ok out) ↔ schema.Closes seeds) ∧
      ∀ out, model.filter seeds = .ok out →
        (∀ key, key ∈ out.keys .command ↔ ⟨.command, key⟩ ∈ seeds) ∧
        (∀ key, key ∈ out.keys .event ↔ ⟨.event, key⟩ ∈ seeds) ∧
        (∀ key, key ∈ out.keys .type ↔ schema.Reaches seeds .type key) ∧
        out = schema.restrictTo (schema.needs seeds) := by
  constructor
  · constructor
    · intro given
      rcases given with ⟨out, run⟩
      exact ((filter_eq_ok_iff_closes accepted).mp run).1
    · intro closes
      exact ⟨_, (filter_eq_ok_iff_closes accepted).mpr ⟨closes, rfl⟩⟩
  · intro out run
    refine ⟨fun key => ?_, fun key => ?_, fun key => ?_, ?_⟩
    · rw [mem_keys_iff_reaches accepted run, reaches_iff_of_ne_type (by decide)]
    · rw [mem_keys_iff_reaches accepted run, reaches_iff_of_ne_type (by decide)]
    · exact mem_keys_iff_reaches accepted run
    · exact ((filter_eq_ok_iff_closes accepted).mp run).2

def cyclicShape : Shape := .object (some [
  { name := "child", shape := .reference "U" }, { name := "back", shape := .reference "A.T" }])

def cyclicCommand : Command where
  name := "go"
  returns := some [{ name := "list", shape := .array (.reference "T") none none }]

/-- Two domains whose types refer to each other, with an unknown type that nothing refers to. -/
def cyclicSchema : Schema where
  domains := [
    { name := "A"
      commands := some [cyclicCommand]
      types := some [{ id := "T", shape := .reference "B.U" }] },
    { name := "B"
      types := some [{ id := "U", shape := cyclicShape },
        { id := "V", shape := .unknown "tuple" }] }]

def cyclicPart : Schema where
  domains := [
    { name := "A"
      commands := some [cyclicCommand]
      types := some [{ id := "T", shape := .reference "B.U" }] },
    { name := "B"
      types := some [{ id := "U", shape := cyclicShape }] }]

theorem walk_cyclicSchema
    (declaredT : model.type? ⟨"A", "T"⟩ = some { id := "T", shape := .reference "B.U" })
    (declaredU : model.type? ⟨"B", "U"⟩ = some { id := "U", shape := cyclicShape }) :
    walk model [] [(.array (.reference "T") none none, "A")] = .ok ["B.U", "A.T"] := by
  have keyT : (⟨"A", "T"⟩ : QualifiedName).toString = "A.T" := by decide
  have keyU : (⟨"B", "U"⟩ : QualifiedName).toString = "B.U" := by decide
  have ownT : resolve "T" "A" = ⟨"A", "T"⟩ := by decide
  have otherU : resolve "B.U" "A" = ⟨"B", "U"⟩ := by decide
  have ownU : resolve "U" "B" = ⟨"B", "U"⟩ := by decide
  have otherT : resolve "A.T" "B" = ⟨"A", "T"⟩ := by decide
  rw [walk, walk_of_declared ownT (by simp) declaredT,
    walk_of_declared otherU (by decide) declaredU, keyT, keyU, cyclicShape, walk, propertyShapes,
    List.map_cons, List.map_cons, List.map_nil, List.append_nil]
  -- Both properties of the definition lead back to types that were entered before.
  rw [walk_of_entered ownU (by simp [keyU]), walk_of_entered otherT (by simp [keyT]), walk]

theorem filter_cyclicSchema : ∃ model, Model.ofSchema cyclicSchema = .ok model ∧
    model.filter [⟨.command, "A.go"⟩] = .ok cyclicPart := by
  have accepts : ∃ model, Model.ofSchema cyclicSchema = .ok model ∧
      model.type? ⟨"A", "T"⟩ = some { id := "T", shape := .reference "B.U" } ∧
      model.type? ⟨"B", "U"⟩ = some { id := "U", shape := cyclicShape } :=
    ⟨_, rfl, rfl, rfl⟩
  obtain ⟨model, accepted, declaredT, declaredU⟩ := accepts
  have run : enterSeeds model (.fill fun _ => []) [⟨.command, "A.go"⟩] =
      .ok ⟨["A.go"], [], ["B.U", "A.T"]⟩ := by
    apply (enterSeeds_cons_eq_ok_iff accepted).mpr
    have member : ("A.go", [.array (.reference "T") none none]) ∈ cyclicSchema.members .command :=
      List.mem_singleton.mpr rfl
    have origin : domainOf "A.go" = "A" := by decide
    refine ⟨by decide, _, .member (by decide) List.not_mem_nil member ?_, rfl⟩
    rw [List.map_singleton, origin]
    exact walk_cyclicSchema declaredT declaredU
  refine ⟨model, accepted, filter_eq_ok_iff.mpr ⟨_, run, ?_⟩⟩
  rw [(Model.indexes_of_ofSchema accepted).1]
  rfl

theorem filter_exact_cyclicSchema : ∃ model, Model.ofSchema cyclicSchema = .ok model ∧
    cyclicSchema.Closes [⟨.command, "A.go"⟩] ∧
    ∀ key, key ∈ cyclicPart.keys .type ↔
      cyclicSchema.Reaches [⟨.command, "A.go"⟩] .type key := by
  obtain ⟨model, accepted, run⟩ := filter_cyclicSchema
  have exactly := filter_exact accepted [⟨.command, "A.go"⟩]
  exact ⟨model, accepted, exactly.1.mp ⟨cyclicPart, run⟩, (exactly.2 cyclicPart run).2.2.1⟩

end Closure
end SchemaTrace
