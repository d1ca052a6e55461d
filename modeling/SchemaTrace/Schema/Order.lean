import SchemaTrace.Schema.Basic
import SchemaTrace.Text.Case
/-!
The order of schemas: domains by name; members of a domain with experimental ones last, then
deprecated ones, then by name. Names are compared without regard to case, and of two names that
differ in case only, the one with lower case first comes first.
-/
namespace SchemaTrace

def compareNames (a b : String) : Ordering :=
  (compare (String.ofList (Text.lower a.toList)) (String.ofList (Text.lower b.toList))).then
    (compare b a)

structure MemberKey where
  experimental : Bool
  deprecated : Bool
  name : String
  deriving DecidableEq, Repr

namespace MemberKey

def compare (a b : MemberKey) : Ordering :=
  (Ord.compare a.experimental b.experimental).then
    ((Ord.compare a.deprecated b.deprecated).then (compareNames a.name b.name))

def le (a b : MemberKey) : Bool := (compare a b).isLE

def isStable (k : MemberKey) : Bool := !k.experimental && !k.deprecated

end MemberKey

def Command.key (c : Command) : MemberKey := ⟨c.experimental, c.deprecated, c.name⟩

def Event.key (e : Event) : MemberKey := ⟨e.experimental, e.deprecated, e.name⟩

def TypeDef.key (t : TypeDef) : MemberKey := ⟨t.experimental, t.deprecated, t.id⟩

def sortMembers {α : Type} (key : α → MemberKey) (members : List α) : List α :=
  members.mergeSort fun a b => (key a).le (key b)

def Domain.sortMembers (d : Domain) : Domain :=
  { d with
    commands := d.commands.map (SchemaTrace.sortMembers Command.key)
    events := d.events.map (SchemaTrace.sortMembers Event.key)
    types := d.types.map (SchemaTrace.sortMembers TypeDef.key) }

def sortDomains (domains : List Domain) : List Domain :=
  domains.mergeSort fun a b => (compareNames a.name b.name).isLE

def Schema.sort (s : Schema) : Schema :=
  { s with domains := sortDomains (s.domains.map Domain.sortMembers) }

/-- The domains of several schemas in one, sorted. The version is that of the first. -/
def Schema.merge (first : Schema) (rest : List Schema) : Schema :=
  Schema.sort { first with domains := first.domains ++ rest.flatMap (·.domains) }

end SchemaTrace
