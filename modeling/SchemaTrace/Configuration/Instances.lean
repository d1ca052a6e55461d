import SchemaTrace.Configuration.Validity
import SchemaTrace.Implementation
import SchemaTrace.Path
/-!
Building configured implementations. A plan spells out what an entry comes to; the instances of a
session are built when they are first asked for, each id once, and shared by the entries that
merge them.
-/
namespace SchemaTrace

namespace Configuration

def leaf (c : Configuration) (base : String) (e : ConfiguredEntry) (convention : Convention) :
    Except ConfigurationError (String × Extractor) :=
  match e.checkout with
  | none => .error (.noCheckout e.id)
  | some checkout =>
    match Extractor.ofConvention convention c.tag with
    | .ok extractor => .ok (Path.join base checkout, extractor)
    | .error error => .error (.invalidConvention e.id error)

end Configuration

/-- What an entry is built from: the entries with conventions below it, in order. -/
inductive Plan where
  | scan (id root : String) (extractor : Extractor)
  | merge (id : String) (members : List Plan)

namespace Plan

mutual

def displayName : Plan → String
  | .scan _ _ extractor => extractor.displayName
  | .merge _ members => " + ".intercalate (displayNames members)

def displayNames : List Plan → List String
  | [] => []
  | member :: rest => displayName member :: displayNames rest

end

mutual

def leaves : Plan → List String
  | .scan id _ _ => [id]
  | .merge _ members => leavesOf members

def leavesOf : List Plan → List String
  | [] => []
  | member :: rest => leaves member ++ leavesOf rest

end

end Plan

namespace Configuration

mutual

/-- The plan of an entry; `above` leads to it through merges. -/
def planFrom (c : Configuration) (base : String) (above : List String) (id : String) :
    Except ConfigurationError Plan :=
  if _ : id ∈ above then .error (.mergesItself id above)
  else
    match _ : c.find? id with
    | none => .error (.unknownId id c.ids)
    | some e =>
      match e.source with
      | .error error => .error error
      | .ok (.convention convention) => do
        let (root, extractor) ← c.leaf base e convention
        return .scan id root extractor
      | .ok (.merge members) => do
        let members ← planAll c base (above ++ [id]) members
        return .merge id members
termination_by ((c.remaining above).length, 0)
decreasing_by exact Prod.Lex.left _ _ (remaining_lt ‹_› ‹_›)

def planAll (c : Configuration) (base : String) (above : List String) :
    List String → Except ConfigurationError (List Plan)
  | [] => .ok []
  | id :: rest => do
    let plan ← planFrom c base above id
    let plans ← planAll c base above rest
    return plan :: plans
termination_by ids => ((c.remaining above).length, ids.length + 1)

end

def plan (c : Configuration) (base id : String) : Except ConfigurationError Plan :=
  c.planFrom base [] id

end Configuration

structure Instances where
  /-- The instances under the ids of their entries, in the order in which they were built. -/
  built : List (String × Implementation) := []
  extractors : Extractors := []
  /-- The checkout of the extractor in each slot. -/
  roots : List String := []

/-- A step that may build instances and fail; what it built before that stays. -/
abbrev Building (α : Type) := ExceptT ConfigurationError (StateM Instances) α

namespace Instances

def occupy (root : String) (extractor : Extractor) : Building Implementation := do
  let slot := (← get).extractors.length
  modify fun s =>
    { s with extractors := s.extractors ++ [extractor], roots := s.roots ++ [root] }
  return .single slot extractor.displayName

def keep (id : String) (i : Implementation) : Building Implementation := do
  modify fun s => { s with built := s.built ++ [(id, i)] }
  return i

mutual

def buildFrom (c : Configuration) (base : String) (above : List String) (id : String) :
    Building Implementation := do
  match (← get).built.lookup id with
  | some i => return i
  | none =>
    if _ : id ∈ above then throw (.mergesItself id above)
    else
      match _ : c.find? id with
      | none => throw (.unknownId id c.ids)
      | some e =>
        match e.source with
        | .error error => throw error
        | .ok (.convention convention) =>
          let (root, extractor) ← (c.leaf base e convention : Except ConfigurationError _)
          keep id (← occupy root extractor)
        | .ok (.merge members) =>
          let members ← buildAll c base (above ++ [id]) members
          keep id (.merged members)
termination_by ((c.remaining above).length, 0)
decreasing_by exact Prod.Lex.left _ _ (Configuration.remaining_lt ‹_› ‹_›)

def buildAll (c : Configuration) (base : String) (above : List String) :
    List String → Building (List Implementation)
  | [] => return []
  | id :: rest => do
    let i ← buildFrom c base above id
    let more ← buildAll c base above rest
    return i :: more
termination_by ids => ((c.remaining above).length, ids.length + 1)

end

def lookup (c : Configuration) (base id : String) : Building Implementation :=
  buildFrom c base [] id

end Instances
end SchemaTrace
