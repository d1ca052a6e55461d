/-!
Protocol schemas: domains that declare commands, events and types, and the shapes of the values
those carry.
-/
namespace SchemaTrace

inductive MemberKind where
  | command
  | event
  | type
  deriving DecidableEq, Repr

namespace MemberKind

def all : List MemberKind := [.command, .event, .type]

def name : MemberKind → String
  | .command => "command"
  | .event => "event"
  | .type => "type"

def plural : MemberKind → String
  | .command => "commands"
  | .event => "events"
  | .type => "types"

end MemberKind

structure Property (σ : Type) where
  name : String
  optional : Bool := false
  description : Option String := none
  experimental : Bool := false
  deprecated : Bool := false
  shape : σ

inductive Shape where
  /-- A pointer to a named type, `Name` or `Domain.Name`. -/
  | reference (target : String)
  | array (items : Shape) (minItems maxItems : Option Nat)
  | object (properties : Option (List (Property Shape)))
  | string (values : Option (List String))
  | integer
  | number
  | boolean
  | any
  /-- A type tag without a known meaning, or whose fields do not fit it. -/
  | unknown (tag : String)

abbrev Parameter := Property Shape

structure TypeDef where
  id : String
  description : Option String := none
  experimental : Bool := false
  deprecated : Bool := false
  shape : Shape

structure Command where
  name : String
  description : Option String := none
  experimental : Bool := false
  deprecated : Bool := false
  parameters : Option (List Parameter) := none
  returns : Option (List Parameter) := none
  redirect : Option String := none
  asynchronous : Bool := false

structure Event where
  name : String
  description : Option String := none
  experimental : Bool := false
  deprecated : Bool := false
  parameters : Option (List Parameter) := none

structure Domain where
  name : String
  description : Option String := none
  experimental : Bool := false
  deprecated : Bool := false
  dependencies : Option (List String) := none
  types : Option (List TypeDef) := none
  commands : Option (List Command) := none
  events : Option (List Event) := none

namespace Domain

def commandList (d : Domain) : List Command := d.commands.getD []

def eventList (d : Domain) : List Event := d.events.getD []

def typeList (d : Domain) : List TypeDef := d.types.getD []

def memberNames (d : Domain) : MemberKind → List String
  | .command => d.commandList.map (·.name)
  | .event => d.eventList.map (·.name)
  | .type => d.typeList.map (·.id)

def key (d : Domain) (member : String) : String := d.name ++ "." ++ member

def isEmpty (d : Domain) : Bool :=
  d.commandList.isEmpty && d.eventList.isEmpty && d.typeList.isEmpty

end Domain

structure ProtocolVersion where
  major : String
  minor : String
  deriving DecidableEq, Repr

structure Schema where
  version : Option ProtocolVersion := none
  domains : List Domain

end SchemaTrace
