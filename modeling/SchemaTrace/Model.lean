import SchemaTrace.Error
import SchemaTrace.Schema.ByKind
import SchemaTrace.Schema.QualifiedName
import SchemaTrace.SortedMap
/-!
A schema with an index of its domains and members by name. Only a schema that declares no domain
and no member twice has a model.
-/
namespace SchemaTrace

/-- The place of a member: its domain's position and its own among the members of its kind. -/
structure Place where
  domain : Nat
  member : Nat
  deriving DecidableEq, Repr

structure Model where
  schema : Schema
  domains : SortedMap Nat
  members : ByKind (SortedMap Place)

namespace Model

def enter {α : Type} (index : SortedMap α) (key : String) (value : α) (twice : Error) :
    Except Error (SortedMap α) :=
  if index.contains key then .error twice else .ok (index.insert key value)

def enterMembers (domain : Domain) (d : Nat) (kind : MemberKind) (m : Nat)
    (index : SortedMap Place) : List String → Except Error (SortedMap Place)
  | [] => .ok index
  | name :: names => do
    let key := domain.key name
    let index ← enter index key ⟨d, m⟩ (.schema (.duplicateMember kind key))
    enterMembers domain d kind (m + 1) index names

def enterDomain (domain : Domain) (d : Nat) (domains : SortedMap Nat)
    (members : ByKind (SortedMap Place)) :
    Except Error (SortedMap Nat × ByKind (SortedMap Place)) := do
  let domains ← enter domains domain.name d (.schema (.duplicateDomain domain.name))
  let commands ←
    enterMembers domain d .command 0 members.commands (domain.memberNames .command)
  let events ← enterMembers domain d .event 0 members.events (domain.memberNames .event)
  let types ← enterMembers domain d .type 0 members.types (domain.memberNames .type)
  return (domains, ⟨commands, events, types⟩)

def enterDomains (d : Nat) (domains : SortedMap Nat) (members : ByKind (SortedMap Place)) :
    List Domain → Except Error (SortedMap Nat × ByKind (SortedMap Place))
  | [] => .ok (domains, members)
  | domain :: rest => do
    let (domains, members) ← enterDomain domain d domains members
    enterDomains (d + 1) domains members rest

def ofSchema (schema : Schema) : Except Error Model := do
  let (domains, members) ← enterDomains 0 .empty (.fill fun _ => .empty) schema.domains
  return ⟨schema, domains, members⟩

def domain? (model : Model) (name : String) : Option Domain := do
  let d ← model.domains.get? name
  model.schema.domains[d]?

def place? (model : Model) (kind : MemberKind) (name : QualifiedName) : Option (Domain × Nat) := do
  let place ← (model.members.get kind).get? name.toString
  let domain ← model.schema.domains[place.domain]?
  return (domain, place.member)

def command? (model : Model) (name : QualifiedName) : Option Command := do
  let (domain, m) ← model.place? .command name
  domain.commandList[m]?

def event? (model : Model) (name : QualifiedName) : Option Event := do
  let (domain, m) ← model.place? .event name
  domain.eventList[m]?

def type? (model : Model) (name : QualifiedName) : Option TypeDef := do
  let (domain, m) ← model.place? .type name
  domain.typeList[m]?

def enforce {α : Type} (kind : LookupKind) (name : String) : Option α → Except Error α
  | some a => .ok a
  | none => .error (.notFound kind name)

def domain (model : Model) (name : String) : Except Error Domain :=
  enforce .domain name (model.domain? name)

def command (model : Model) (name : QualifiedName) : Except Error Command :=
  enforce (.member .command) name.toString (model.command? name)

def event (model : Model) (name : QualifiedName) : Except Error Event :=
  enforce (.member .event) name.toString (model.event? name)

def type (model : Model) (name : QualifiedName) : Except Error TypeDef :=
  enforce (.member .type) name.toString (model.type? name)

end Model
end SchemaTrace
