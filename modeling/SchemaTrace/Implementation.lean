import SchemaTrace.Coverage
import SchemaTrace.Evidence
import SchemaTrace.Seeds
import SchemaTrace.Snapshot.Cache
/-!
Implementations of a protocol: a convention applied to one repository, or several implementations
queried as one. What an extractor learns is kept for the session, also when it is reached through
several merged implementations.
-/
namespace SchemaTrace

structure Extractor where
  scanner : Scanner
  cache : SnapshotCache
  comments : Option Comment.Index := none

namespace Extractor

def ofConvention (convention : Convention) (tag : String) : Except Error Extractor := do
  let scanner ← Scanner.ofConvention convention tag
  return { scanner, cache := { repo := convention.repo, scope := convention.scope } }

def displayName (x : Extractor) : String := x.scanner.convention.displayName

def snapshot (p : Provider) (x : Extractor) : Outcome Snapshot × Extractor :=
  let (outcome, cache) := x.cache.run (SnapshotCache.getSnapshot p)
  (outcome, { x with cache })

def references (p : Provider) (schema : Schema) (x : Extractor) :
    Except Error ReferenceMap × Extractor :=
  match x.snapshot p with
  | (.error e, x) => (.error (.fetch e), x)
  | (.ok snapshot, x) =>
    let comments := x.comments.getD (x.scanner.indexComments snapshot)
    (x.scanner.extract comments snapshot schema, { x with comments := some comments })

def dataSource (p : Provider) (x : Extractor) : Except Error PinnedRepository × Extractor :=
  match x.snapshot p with
  | (.error e, x) => (.error (.fetch e), x)
  | (.ok snapshot, x) => (.ok snapshot.repository, x)

end Extractor

inductive Implementation where
  /-- The extractor in a slot of the session. -/
  | single (slot : Nat) (displayName : String)
  | merged (children : List Implementation)
  deriving BEq

abbrev Extractors := List Extractor

abbrev Extracting (α : Type) := ExceptT Error (StateM Extractors) α

namespace Implementation

mutual

def displayName : Implementation → String
  | .single _ name => name
  | .merged children => " + ".intercalate (displayNames children)

def displayNames : List Implementation → List String
  | [] => []
  | child :: rest => displayName child :: displayNames rest

end

def onSlot {α : Type} (slot : Nat) (step : Extractor → Except Error α × Extractor) :
    Extracting α := do
  match (← get)[slot]? with
  | none => throw (.schema (.stated s!"no extractor in slot {slot}"))
  | some extractor =>
    let (answer, extractor) := step extractor
    modify fun all => all.set slot extractor
    answer

mutual

/-- The references of an implementation; those of merged ones are appended in their order. -/
def references (providers : Nat → Provider) (schema : Schema) :
    Implementation → Extracting ReferenceMap
  | .single slot _ => onSlot slot (Extractor.references (providers slot) schema)
  | .merged children => referencesOf providers schema .empty children

def referencesOf (providers : Nat → Provider) (schema : Schema) (found : ReferenceMap) :
    List Implementation → Extracting ReferenceMap
  | [] => return found
  | child :: rest => do
    let more ← references providers schema child
    referencesOf providers schema (found.extend more) rest

end

mutual

def dataSource (providers : Nat → Provider) : Implementation → Extracting (Option PinnedRepository)
  | .single slot _ => do
    let repository ← onSlot slot (Extractor.dataSource (providers slot))
    return some repository
  | .merged children => firstDataSource providers children

def firstDataSource (providers : Nat → Provider) :
    List Implementation → Extracting (Option PinnedRepository)
  | [] => return none
  | child :: rest => do
    match ← dataSource providers child with
    | some repository => return some repository
    | none => firstDataSource providers rest

end

def filterBy (schema : Schema) (references : ReferenceMap) : Except Error Schema := do
  let model ← Model.ofSchema schema
  model.filter (schema.implementedSeeds references)

def filter (providers : Nat → Provider) (schema : Schema) (i : Implementation) :
    Extracting Schema := do
  let references ← references providers schema i
  filterBy schema references

def coverage (providers : Nat → Provider) (schema : Schema) (i : Implementation) :
    Extracting Coverage := do
  let references ← references providers schema i
  return .compute i.displayName schema references

end Implementation
end SchemaTrace
