import SchemaTrace.Proofs.Closure.Exact
import SchemaTrace.Proofs.Schema.Stable

/-! The stable part of a consistent schema. It has a model, but a member that stays may refer to a
type that goes, and only then the closure of all that stays fails. -/

namespace SchemaTrace

def Schema.EveryMember (s : Schema) (seeds : List Seed) : Prop :=
  ∀ seed, seed ∈ seeds ↔ seed.name ∈ s.keys seed.kind

def Schema.RefersToUnstable (s : Schema) (kind : MemberKind) (key name : String) : Prop :=
  s.stable.Refers kind key name ∧ name ∈ s.keys .type ∧ name ∉ s.stable.keys .type

open QualifiedName (domainOf resolve)

namespace Closure

variable {schema : Schema} {model : Model} {seeds : List Seed}

theorem mem_keys_of_refers {kind : MemberKind} {key name : String}
    (refers : schema.Refers kind key name) : key ∈ schema.keys kind := by
  obtain ⟨shape, target, ⟨shapes, member, inside⟩, within, eq⟩ := refers
  exact Schema.mem_keys_iff.mpr ⟨shapes, member⟩

/-- A closure of all members asks that all references lead to types that are declared, and that no
shape is unknown. -/
theorem closes_everyMember_iff (every : schema.EveryMember seeds) :
    schema.Closes seeds ↔
      (∀ kind key name, schema.Refers kind key name → name ∈ schema.keys .type) ∧
        ∀ kind key shape, schema.Carries kind key shape →
          ∀ tag, ¬shape.Contains (.unknown tag) := by
  have reached {kind : MemberKind} {key : String} (declared : key ∈ schema.keys kind) :
      schema.Reaches seeds kind key := .seed ((every ⟨kind, key⟩).mpr declared)
  constructor
  · intro closes
    constructor
    · intro kind key name refers
      exact closes.reached name (.refers (reached (mem_keys_of_refers refers)) refers)
    · intro kind key shape carried
      have declared : key ∈ schema.keys kind := by
        obtain ⟨shapes, member, -⟩ := carried
        exact Schema.mem_keys_iff.mpr ⟨shapes, member⟩
      exact closes.known kind key (reached declared) shape carried
  · intro given
    rcases given with ⟨resolved, known⟩
    have declared {kind : MemberKind} {key : String} (reached : schema.Reaches seeds kind key) :
        key ∈ schema.keys kind := by
      cases reached with
      | seed member => exact (every _).mp member
      | refers _ refers => exact resolved _ _ _ refers
    constructor
    · intro seed member
      exact Schema.dot_mem_of_mem_keys ((every seed).mp member)
    · intro seed member
      exact (every seed).mp member
    · intro name reached
      exact declared reached
    · intro kind key _ shape carried
      exact known kind key shape carried

theorem unambiguous_stable (unambiguous : schema.Unambiguous) : schema.stable.Unambiguous where
  domains := unambiguous.domains.sublist schema.names_stable_sublist
  members kind := (unambiguous.members kind).sublist (schema.keys_stable_sublist kind)

theorem refers_of_stable {kind : MemberKind} {key name : String}
    (refers : schema.stable.Refers kind key name) : schema.Refers kind key name := by
  obtain ⟨shape, target, carried, within, eq⟩ := refers
  exact ⟨shape, target, Schema.carries_of_stable carried, within, eq⟩

/-- Keeping every member drops the domains that have none, and nothing else. -/
theorem restrictTo_every (s : Schema) {keep : MemberKind → String → Bool}
    (every : ∀ kind, ∀ key ∈ s.keys kind, keep kind key = true) :
    s.restrictTo keep = { s with domains := s.domains.filter fun d => !d.isEmpty } := by
  have all : s.restrictTo keep = s.restrictTo fun _ _ => true := s.restrictTo_congr every
  have whole (d : Domain) : d.restrictTo (fun _ _ => true) = d := by
    cases d with
    | mk name description experimental deprecated dependencies types commands events =>
      cases types <;> cases commands <;> cases events <;> simp [Domain.restrictTo]
  rw [all]
  simp only [Schema.restrictTo, whole, List.map_id']

/-- If the closure of all members of a schema succeeds, its stable part has a model. There, the
closure of all members succeeds exactly if none of them refers to a type that went, and then it
keeps all of them. -/
theorem stable_consistent_iff (accepted : Model.ofSchema schema = .ok model)
    (every : schema.EveryMember seeds) {out : Schema} (run : model.filter seeds = .ok out) :
    ∃ inner, Model.ofSchema schema.stable = .ok inner ∧
      ∀ kept : List Seed, schema.stable.EveryMember kept →
        ((∃ part, inner.filter kept = .ok part) ↔
          ∀ kind key name, ¬schema.RefersToUnstable kind key name) ∧
        ∀ part, inner.filter kept = .ok part →
          part = { schema.stable with
            domains := schema.stable.domains.filter fun d => !d.isEmpty } := by
  obtain ⟨closes, -⟩ := (filter_eq_ok_iff_closes accepted).mp run
  obtain ⟨resolved, known⟩ := (closes_everyMember_iff every).mp closes
  have unambiguous := unambiguous_stable (Model.unambiguous_of_ofSchema accepted)
  obtain ⟨inner, acceptedStable⟩ := Model.exists_ofSchema_iff.mpr unambiguous
  refine ⟨inner, acceptedStable, fun kept everyKept => ⟨?_, ?_⟩⟩
  · rw [exists_filter_eq_ok_iff acceptedStable, closes_everyMember_iff everyKept]
    constructor
    · intro given kind key name unstable
      obtain ⟨refers, -, gone⟩ := unstable
      exact gone (given.1 kind key name refers)
    · intro none
      constructor
      · intro kind key name refers
        by_contra gone
        exact none kind key name ⟨refers, resolved kind key name (refers_of_stable refers), gone⟩
      · intro kind key shape carried
        exact known kind key shape (Schema.carries_of_stable carried)
  · intro part runKept
    obtain ⟨-, rfl⟩ := (filter_eq_ok_iff_closes acceptedStable).mp runKept
    apply restrictTo_every
    intro kind key declared
    exact Schema.needs_eq_true_iff.mpr (.seed ((everyKept ⟨kind, key⟩).mpr declared))

def flaggedCommand : Command where
  name := "go"
  parameters := some [{ name := "at", shape := .reference "T" }]

def flaggedSchema : Schema where
  domains := [
    { name := "A"
      commands := some [flaggedCommand]
      types := some [{ id := "T", experimental := true, shape := .string none }] }]

theorem filter_flaggedSchema : ∃ model, Model.ofSchema flaggedSchema = .ok model ∧
    model.filter [⟨.command, "A.go"⟩, ⟨.type, "A.T"⟩] = .ok flaggedSchema := by
  have accepts : ∃ model, Model.ofSchema flaggedSchema = .ok model ∧
      model.type? ⟨"A", "T"⟩ = some { id := "T", experimental := true, shape := .string none } :=
    ⟨_, rfl, rfl⟩
  obtain ⟨model, accepted, declared⟩ := accepts
  have key : (⟨"A", "T"⟩ : QualifiedName).toString = "A.T" := by decide
  have own : resolve "T" "A" = ⟨"A", "T"⟩ := by decide
  have full : resolve "A.T" "A" = ⟨"A", "T"⟩ := by decide
  have command : EntersSeed flaggedSchema model (.fill fun _ => []) .command "A.go"
      ⟨["A.go"], [], ["A.T"]⟩ := by
    have member : ("A.go", [.reference "T"]) ∈ flaggedSchema.members .command :=
      List.mem_singleton.mpr rfl
    have origin : domainOf "A.go" = "A" := by decide
    have walked : walk model [] [(.reference "T", "A")] = .ok ["A.T"] := by
      rw [walk_of_declared own List.not_mem_nil declared, walk, walk, key]
    refine .member (by decide) List.not_mem_nil member ?_
    rw [List.map_singleton, origin]
    exact walked
  have type : EntersSeed flaggedSchema model ⟨["A.go"], [], ["A.T"]⟩ .type "A.T"
      ⟨["A.go"], [], ["A.T"]⟩ := by
    have origin : domainOf "A.T" = "A" := by decide
    refine .type ?_
    rw [origin, walk_of_entered full (by simp [key]), walk]
  have run : enterSeeds model (.fill fun _ => []) [⟨.command, "A.go"⟩, ⟨.type, "A.T"⟩] =
      .ok ⟨["A.go"], [], ["A.T"]⟩ := by
    apply (enterSeeds_cons_eq_ok_iff accepted).mpr
    refine ⟨by decide, _, command, ?_⟩
    exact (enterSeeds_cons_eq_ok_iff accepted).mpr ⟨by decide, _, type, rfl⟩
  refine ⟨model, accepted, filter_eq_ok_iff.mpr ⟨_, run, ?_⟩⟩
  rw [(Model.indexes_of_ofSchema accepted).1]
  rfl

theorem everyMember_flaggedSchema :
    flaggedSchema.EveryMember [⟨.command, "A.go"⟩, ⟨.type, "A.T"⟩] ∧
      flaggedSchema.stable.EveryMember [⟨.command, "A.go"⟩] := by
  have commands : flaggedSchema.keys .command = ["A.go"] := rfl
  have events : flaggedSchema.keys .event = [] := rfl
  have types : flaggedSchema.keys .type = ["A.T"] := rfl
  have stableCommands : flaggedSchema.stable.keys .command = ["A.go"] := rfl
  have stableEvents : flaggedSchema.stable.keys .event = [] := rfl
  have stableTypes : flaggedSchema.stable.keys .type = [] := rfl
  constructor
  · intro seed
    rcases seed with ⟨_ | _ | _, name⟩ <;> simp [commands, events, types]
  · intro seed
    rcases seed with ⟨_ | _ | _, name⟩ <;> simp [stableCommands, stableEvents, stableTypes]

theorem refersToUnstable_flaggedSchema : flaggedSchema.RefersToUnstable .command "A.go" "A.T" := by
  have carried : flaggedSchema.stable.Carries .command "A.go" (.reference "T") :=
    ⟨[.reference "T"], List.mem_singleton.mpr rfl, List.mem_singleton.mpr rfl⟩
  have declared : "A.T" ∈ flaggedSchema.keys .type := List.mem_singleton.mpr rfl
  have gone : flaggedSchema.stable.keys .type = [] := rfl
  refine ⟨⟨.reference "T", "T", carried, .self _, by decide⟩, declared, ?_⟩
  rw [gone]
  exact List.not_mem_nil

theorem stable_consistent_iff_flaggedSchema : ∃ model inner,
    Model.ofSchema flaggedSchema = .ok model ∧
      flaggedSchema.EveryMember [⟨.command, "A.go"⟩, ⟨.type, "A.T"⟩] ∧
      model.filter [⟨.command, "A.go"⟩, ⟨.type, "A.T"⟩] = .ok flaggedSchema ∧
      Model.ofSchema flaggedSchema.stable = .ok inner ∧
      flaggedSchema.RefersToUnstable .command "A.go" "A.T" ∧
      ¬∃ part, inner.filter [⟨.command, "A.go"⟩] = .ok part := by
  obtain ⟨model, accepted, run⟩ := filter_flaggedSchema
  obtain ⟨every, everyStable⟩ := everyMember_flaggedSchema
  obtain ⟨inner, acceptedStable, consistent⟩ := stable_consistent_iff accepted every run
  refine ⟨model, inner, accepted, every, run, acceptedStable, refersToUnstable_flaggedSchema, ?_⟩
  intro succeeds
  exact (consistent _ everyStable).1.mp succeeds _ _ _ refersToUnstable_flaggedSchema

/-- The closure of all members of a schema succeeds, and that of all its stable members does not
find a type. -/
theorem stable_inconsistent : ∃ model inner,
    Model.ofSchema flaggedSchema = .ok model ∧
      flaggedSchema.EveryMember [⟨.command, "A.go"⟩, ⟨.type, "A.T"⟩] ∧
      model.filter [⟨.command, "A.go"⟩, ⟨.type, "A.T"⟩] = .ok flaggedSchema ∧
      Model.ofSchema flaggedSchema.stable = .ok inner ∧
      flaggedSchema.stable.EveryMember [⟨.command, "A.go"⟩] ∧
      inner.filter [⟨.command, "A.go"⟩] = .error (.notFound (.member .type) "A.T") := by
  obtain ⟨model, accepted, run⟩ := filter_flaggedSchema
  obtain ⟨every, everyStable⟩ := everyMember_flaggedSchema
  have accepts : ∃ inner, Model.ofSchema flaggedSchema.stable = .ok inner ∧
      inner.command ⟨"A", "go"⟩ = .ok flaggedCommand ∧ inner.type? ⟨"A", "T"⟩ = none :=
    ⟨_, rfl, rfl, rfl⟩
  obtain ⟨inner, acceptedStable, found, missing⟩ := accepts
  refine ⟨model, inner, accepted, every, run, acceptedStable, everyStable, ?_⟩
  have own : resolve "T" "A" = ⟨"A", "T"⟩ := by decide
  have key : (⟨"A", "T"⟩ : QualifiedName).toString = "A.T" := by decide
  have walked : walk inner [] [(.reference "T", "A")] =
      .error (.notFound (.member .type) "A.T") := by
    rw [walk_of_missing own List.not_mem_nil missing, key]
  have entered : enterCommand inner (.fill fun _ => []) ⟨"A", "go"⟩ =
      .error (.notFound (.member .type) "A.T") := by
    rw [enterCommand, found]
    change (walk inner [] [(.reference "T", "A")] >>= fun types => pure _) = _
    rw [walked]
    rfl
  have parsed : QualifiedName.parse? "A.go" = some ⟨"A", "go"⟩ := by decide
  simp only [Model.filter, enterSeeds, enterSeed, parsed, entered]
  rfl

end Closure
end SchemaTrace
