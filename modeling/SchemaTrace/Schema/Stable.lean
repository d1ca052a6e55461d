import SchemaTrace.Schema.Order
/-!
The stable part of a schema: without experimental and deprecated domains and members. A stable
domain always has lists of events and types, empty if need be; an absent list of commands stays
absent.
-/
namespace SchemaTrace

def keepStable {α : Type} (key : α → MemberKey) (members : List α) : List α :=
  members.filter fun m => (key m).isStable

def Domain.isStable (d : Domain) : Bool := !d.experimental && !d.deprecated

def Domain.stable (d : Domain) : Domain :=
  { d with
    commands := d.commands.map (keepStable Command.key)
    events := some (keepStable Event.key d.eventList)
    types := some (keepStable TypeDef.key d.typeList) }

def Schema.stable (s : Schema) : Schema :=
  { s with domains := (s.domains.filter Domain.isStable).map Domain.stable }

end SchemaTrace
