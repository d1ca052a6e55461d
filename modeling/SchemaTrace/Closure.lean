import SchemaTrace.Measure
import SchemaTrace.Model
/-!
The part of a schema that a list of members needs. Commands need the types of their parameters
and return values, events those of their parameters, and types all that their definitions refer
to. Each definition is entered once; domains left without members are dropped.
-/
namespace SchemaTrace

structure Seed where
  kind : MemberKind
  name : String
  deriving DecidableEq, Repr

namespace Closure

/-- The keys of the members entered so far, the last one first. -/
abbrev Entered := ByKind (List String)

def parameters (list : Option (List Parameter)) : List Shape := (list.getD []).map (·.shape)

mutual

def shapeSize : Shape → Nat
  | .array items _ _ => shapeSize items + 1
  | .object (some properties) => propertiesSize properties + 1
  | _ => 1

def propertiesSize : List (Property Shape) → Nat
  | [] => 0
  | ⟨_, _, _, _, _, shape⟩ :: rest => shapeSize shape + propertiesSize rest

end

abbrev Pending := List (Shape × String)

def pendingSize : Pending → Nat
  | [] => 0
  | (shape, _) :: rest => shapeSize shape + pendingSize rest

def remaining (model : Model) (entered : List String) : Nat :=
  (model.members.types.keys.filter (· ∉ entered)).length

def propertyShapes (origin : String) (properties : List (Property Shape)) : Pending :=
  properties.map fun p => (p.shape, origin)

theorem pendingSize_propertyShapes (origin : String) (properties : List (Property Shape)) :
    pendingSize (propertyShapes origin properties) = propertiesSize properties := by
  induction properties with
  | nil => rfl
  | cons p rest ih =>
    cases p
    simp_all [propertiesSize, propertyShapes, pendingSize]

theorem pendingSize_append (a b : Pending) :
    pendingSize (a ++ b) = pendingSize a + pendingSize b := by
  induction a with
  | nil => simp [pendingSize]
  | cons first rest ih => simp [pendingSize, ih, Nat.add_assoc]

theorem mem_keys_of_type? {model : Model} {name : QualifiedName} {definition : TypeDef}
    (found : model.type? name = some definition) :
    name.toString ∈ model.members.types.keys := by
  simp only [Model.type?, Model.place?, Option.bind_eq_bind, Option.bind_eq_some_iff] at found
  obtain ⟨-, ⟨place, indexed, -⟩, -⟩ := found
  exact SortedMap.mem_keys_iff.mpr ⟨place, indexed⟩

theorem remaining_cons_lt {model : Model} {entered : List String} {key : String}
    (declared : key ∈ model.members.types.keys) (fresh : key ∉ entered) :
    remaining model (key :: entered) < remaining model entered := by
  apply length_filter_lt (x := key)
  · intro other left
    simp_all
  · exact declared
  · simpa using fresh
  · simp

/-- Looks at pending shapes in order, entering each type that is referred to for the first time
before anything behind the reference. -/
def walk (model : Model) (entered : List String) : Pending → Except Error (List String)
  | [] => .ok entered
  | (shape, origin) :: pending =>
    match shape with
    | .reference target =>
      let name := QualifiedName.resolve target origin
      if name.toString ∈ entered then walk model entered pending
      else match _found : model.type? name with
        | none => .error (.notFound (.member .type) name.toString)
        | some definition =>
          walk model (name.toString :: entered) ((definition.shape, name.domain) :: pending)
    | .array items _ _ => walk model entered ((items, origin) :: pending)
    | .object none => walk model entered pending
    | .object (some properties) =>
      walk model entered (propertyShapes origin properties ++ pending)
    | .unknown tag => .error (.schema (.unhandledType tag origin))
    | .string _ | .integer | .number | .boolean | .any => walk model entered pending
termination_by pending => (remaining model entered, pendingSize pending)
decreasing_by
  · exact Prod.Lex.right _ (by simp [pendingSize, shapeSize])
  · next fresh => exact Prod.Lex.left _ _ (remaining_cons_lt (mem_keys_of_type? _found) fresh)
  · exact Prod.Lex.right _ (by simp [pendingSize, shapeSize])
  · exact Prod.Lex.right _ (by simp [pendingSize, shapeSize])
  · apply Prod.Lex.right
    rw [pendingSize_append, pendingSize_propertyShapes]
    simp [pendingSize, shapeSize]
  all_goals exact Prod.Lex.right _ (by simp [pendingSize, shapeSize])

def enterCommand (model : Model) (entered : Entered) (name : QualifiedName) :
    Except Error Entered := do
  if name.toString ∈ entered.commands then return entered
  let command ← model.command name
  let shapes := parameters command.parameters ++ parameters command.returns
  let types ← walk model entered.types (shapes.map (·, name.domain))
  return { entered with commands := name.toString :: entered.commands, types }

def enterEvent (model : Model) (entered : Entered) (name : QualifiedName) :
    Except Error Entered := do
  if name.toString ∈ entered.events then return entered
  let event ← model.event name
  let types ← walk model entered.types ((parameters event.parameters).map (·, name.domain))
  return { entered with events := name.toString :: entered.events, types }

def enterType (model : Model) (entered : Entered) (name : QualifiedName) :
    Except Error Entered := do
  let types ← walk model entered.types [(.reference name.toString, name.domain)]
  return { entered with types }

def enterSeed (model : Model) (entered : Entered) (seed : Seed) : Except Error Entered :=
  match QualifiedName.parse? seed.name with
  | none => .error (.invalidRef seed.name)
  | some name =>
    match seed.kind with
    | .command => enterCommand model entered name
    | .event => enterEvent model entered name
    | .type => enterType model entered name

def enterSeeds (model : Model) : Entered → List Seed → Except Error Entered
  | entered, [] => .ok entered
  | entered, seed :: seeds => do
    let entered ← enterSeed model entered seed
    enterSeeds model entered seeds

def keepEntered (entered : Entered) (d : Domain) : Domain :=
  { d with
    commands := d.commands.map (List.filter fun c => d.key c.name ∈ entered.commands)
    events := d.events.map (List.filter fun e => d.key e.name ∈ entered.events)
    types := d.types.map (List.filter fun t => d.key t.id ∈ entered.types) }

def restrict (schema : Schema) (entered : Entered) : Schema :=
  { schema with
    domains := (schema.domains.map (keepEntered entered)).filter fun d => !d.isEmpty }

end Closure

def Model.filter (model : Model) (seeds : List Seed) : Except Error Schema := do
  let entered ← Closure.enterSeeds model (.fill fun _ => []) seeds
  return Closure.restrict model.schema entered

end SchemaTrace
