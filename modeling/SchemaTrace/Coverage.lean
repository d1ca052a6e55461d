import SchemaTrace.Document.Decode
import SchemaTrace.Document.Encode
import SchemaTrace.Reference.Basic
import SchemaTrace.Schema.QualifiedName
/-!
How much of a protocol an implementation references.
-/
namespace SchemaTrace

open Document Document.RecordDecoder

structure MemberCounts where
  domains : Nat := 0
  commands : Nat := 0
  events : Nat := 0
  types : Nat := 0
  deriving DecidableEq, Repr

namespace MemberCounts

def members (c : MemberCounts) : Nat := c.commands + c.events + c.types

def get (c : MemberCounts) : MemberKind → Nat
  | .command => c.commands
  | .event => c.events
  | .type => c.types

def encode (c : MemberCounts) : Document :=
  .record [("domains", .natural c.domains), ("commands", .natural c.commands),
    ("events", .natural c.events), ("types", .natural c.types)]

def decode : Decoder MemberCounts := RecordDecoder.decode <|
  MemberCounts.mk <$> required "domains" Decode.natural <*> required "commands" Decode.natural <*>
    required "events" Decode.natural <*> required "types" Decode.natural

end MemberCounts

/-- The size of a schema; domains without members do not count. -/
def Schema.counts (s : Schema) : MemberCounts where
  domains := (s.domains.filter fun d => !d.isEmpty).length
  commands := (s.domains.flatMap Domain.commandList).length
  events := (s.domains.flatMap Domain.eventList).length
  types := (s.domains.flatMap Domain.typeList).length

def domainOfName (name : String) : String :=
  match QualifiedName.parse? name with
  | some q => q.domain
  | none => name

/-- The size of what is referenced; domains are those the referenced names begin with. -/
def ReferenceMap.counts (m : ReferenceMap) : MemberCounts where
  domains :=
    (MemberKind.all.flatMap fun kind => (m.referenced kind).map domainOfName).eraseDups.length
  commands := (m.referenced .command).length
  events := (m.referenced .event).length
  types := (m.referenced .type).length

structure Coverage where
  implementation : String
  total : MemberCounts
  implemented : MemberCounts
  deriving DecidableEq, Repr

namespace Coverage

def compute (implementation : String) (schema : Schema) (references : ReferenceMap) : Coverage :=
  ⟨implementation, schema.counts, references.counts⟩

/-- The referenced part in percent; a protocol without members is fully covered. -/
def percent (c : Coverage) : Float :=
  if c.total.members = 0 then 100.0
  else c.implemented.members.toFloat / c.total.members.toFloat * 100.0

def reaches (c : Coverage) (threshold : Float) : Bool := c.percent ≥ threshold

def encode (c : Coverage) : Document :=
  .record [("implementation", .text c.implementation), ("protocol", c.total.encode),
    ("implemented", c.implemented.encode)]

def decode : Decoder Coverage := RecordDecoder.decode <|
  Coverage.mk <$> required "implementation" Decode.text <*>
    required "protocol" MemberCounts.decode <*> required "implemented" MemberCounts.decode

end Coverage
end SchemaTrace
