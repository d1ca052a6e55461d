import SchemaTrace.Proofs.Closure.Exact
import SchemaTrace.Proofs.Schema.Reading

/-! Writing a schema and reading it again. An unknown shape is written as its type tag alone; where
this makes up a shape of a known kind it turns into that, and the schema means something else. All
other schemas are read back as they were, and what was read back once does not change again. A
closure visits every shape of what it keeps, so no unknown shape is left in a closure. -/

namespace SchemaTrace

open Closure (filter_type walk walk_of_declared)
open QualifiedName (resolve)

namespace Schema

theorem unambiguous_mapShapes_iff {s : Schema} {f : Shape → Shape} :
    (s.mapShapes f).Unambiguous ↔ s.Unambiguous := by
  constructor
  · intro unambiguous
    exact ⟨s.names_mapShapes ▸ unambiguous.domains,
      fun kind => s.keys_mapShapes kind ▸ unambiguous.members kind⟩
  · intro unambiguous
    exact ⟨s.names_mapShapes.symm ▸ unambiguous.domains,
      fun kind => (s.keys_mapShapes kind).symm ▸ unambiguous.members kind⟩

/-- What is written for a schema is read back settled, and settled schemas are read back as they
are. The schema itself is read back exactly if no unknown shape in it has a tag that will do
alone. -/
theorem decode_encode_settled (s : Schema) :
    Schema.decode s.encode = .ok s.settled ∧
      Schema.decode s.settled.encode = .ok s.settled ∧
      ((∃ model, Model.ofSchema s.settled = .ok model) ↔ ∃ model, Model.ofSchema s = .ok model) ∧
      (Schema.decode s.encode = .ok s ↔ ∀ kind key shape, s.Carries kind key shape →
        ∀ tag ∈ Shape.bareTags, ¬shape.Contains (.unknown tag)) := by
  have again : Schema.decode s.settled.encode = .ok s.settled := by
    rw [decode_encode, settled_settled]
  have accepted : (∃ model, Model.ofSchema s.settled = .ok model) ↔
      ∃ model, Model.ofSchema s = .ok model := by
    rw [Model.exists_ofSchema_iff, Model.exists_ofSchema_iff, settled, unambiguous_mapShapes_iff]
  refine ⟨decode_encode s, again, accepted, ?_⟩
  rw [decode_encode, Except.ok.injEq, settled_eq_self_iff]

def misfitDocument : Document :=
  .record [("domains", .list [.record [("domain", .text "A"),
    ("types", .list [.record [("id", .text "T"), ("type", .text "string"),
      ("enum", .natural 5)]])]])]

def misfitSchema : Schema where
  domains := [{ name := "A", types := some [{ id := "T", shape := .unknown "string" }] }]

def plainSchema : Schema where
  domains := [{ name := "A", types := some [{ id := "T", shape := .string none }] }]

/-- The type that did not fit its tag is read back as a string type, and a closure that it stood in
the way of succeeds. -/
theorem misfit_read_back_plain : Schema.decode misfitDocument = .ok misfitSchema ∧
    Schema.decode misfitSchema.encode = .ok plainSchema ∧
    ∃ model again, Model.ofSchema misfitSchema = .ok model ∧
      Model.ofSchema plainSchema = .ok again ∧
      model.filter [⟨.type, "A.T"⟩] = .error (.schema (.unhandledType "string" "A")) ∧
      again.filter [⟨.type, "A.T"⟩] = .ok plainSchema := by
  have accepts : ∃ model, Model.ofSchema misfitSchema = .ok model ∧
      model.type? ⟨"A", "T"⟩ = some { id := "T", shape := .unknown "string" } := ⟨_, rfl, rfl⟩
  have acceptsPlain : ∃ again, Model.ofSchema plainSchema = .ok again ∧
      again.schema = plainSchema ∧
      again.type? ⟨"A", "T"⟩ = some { id := "T", shape := .string none } := ⟨_, rfl, rfl, rfl⟩
  obtain ⟨model, accepted, declared⟩ := accepts
  obtain ⟨again, acceptedPlain, same, declaredPlain⟩ := acceptsPlain
  have parsed : QualifiedName.parse? "A.T" = some ⟨"A", "T"⟩ := by decide
  have key : (⟨"A", "T"⟩ : QualifiedName).toString = "A.T" := by decide
  have own : resolve "A.T" "A" = ⟨"A", "T"⟩ := by decide
  refine ⟨rfl, decode_encode misfitSchema, model, again, accepted, acceptedPlain, ?_, ?_⟩
  · rw [filter_type model parsed, key, walk_of_declared own List.not_mem_nil declared, walk]
    rfl
  · rw [filter_type again parsed, key, walk_of_declared own List.not_mem_nil declaredPlain, walk,
      walk, key, same]
    rfl

/-! ### Closures -/

theorem known_of_filter {s out : Schema} {model : Model} {seeds : List Seed}
    (accepted : Model.ofSchema s = .ok model) (run : model.filter seeds = .ok out) :
    ∀ kind key shape, out.Carries kind key shape → ∀ tag, ¬shape.Contains (.unknown tag) := by
  obtain ⟨closes, rfl⟩ := (Closure.filter_eq_ok_iff_closes accepted).mp run
  intro kind key shape carried
  obtain ⟨carriedWhole, needed⟩ := carries_restrictTo_iff.mp carried
  exact closes.known kind key (needs_eq_true_iff.mp needed) shape carriedWhole

/-- What is written for a closure is read back as the closure itself, since no shape that the
closure keeps is or contains an unknown one. -/
theorem decode_encode_filter {s out : Schema} {model : Model} {seeds : List Seed}
    (accepted : Model.ofSchema s = .ok model) (run : model.filter seeds = .ok out) :
    Schema.decode out.encode = .ok out ∧
      ∀ kind key shape, out.Carries kind key shape → ∀ tag, ¬shape.Contains (.unknown tag) := by
  have known := known_of_filter accepted run
  refine ⟨?_, known⟩
  calc
    Schema.decode out.encode = .ok out.settled := decode_encode out
    _ = .ok out := by
      rw [settled_eq_self_iff.mpr]
      exact fun kind key shape carried tag _ => known kind key shape carried tag

/-- The whole schema has an unknown shape, which the closure does not reach. -/
theorem decode_encode_filter_cyclicSchema : ∃ model,
    Model.ofSchema Closure.cyclicSchema = .ok model ∧
      model.filter [⟨.command, "A.go"⟩] = .ok Closure.cyclicPart ∧
      Schema.decode Closure.cyclicPart.encode = .ok Closure.cyclicPart := by
  obtain ⟨model, accepted, run⟩ := Closure.filter_cyclicSchema
  exact ⟨model, accepted, run, (decode_encode_filter accepted run).1⟩

end Schema
end SchemaTrace
