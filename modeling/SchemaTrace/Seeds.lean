import SchemaTrace.Closure
import SchemaTrace.Document.Decode
import SchemaTrace.Reference.Basic
/-!
The members for which there is evidence, as seeds of a closure; seeds as documents.
-/
namespace SchemaTrace

open Document Document.RecordDecoder

def Schema.keys (s : Schema) (kind : MemberKind) : List String :=
  s.domains.flatMap fun d => (d.memberNames kind).map d.key

/-- Referenced commands, then events, then types, each in schema order. -/
def Schema.implementedSeeds (s : Schema) (references : ReferenceMap) : List Seed :=
  MemberKind.all.flatMap fun kind =>
    ((s.keys kind).filter (references.isReferenced kind)).map (⟨kind, ·⟩)

def MemberKind.ofName? (name : String) : Option MemberKind :=
  MemberKind.all.find? (·.name = name)

/-- A kind is given by its name, also as the single field of a record without value. -/
def MemberKind.decode : Decoder MemberKind
  | .text name => match MemberKind.ofName? name with
    | some kind => .ok kind
    | none => .error .mismatch
  | .record [(name, .null)] => match MemberKind.ofName? name with
    | some kind => .ok kind
    | none => .error .mismatch
  | doc => Decode.refuse doc

def Seed.decode : Decoder Seed := RecordDecoder.decode <|
  (fun name kind => ⟨kind, name⟩) <$> required "$ref" Decode.text <*>
    required "kind" MemberKind.decode

def Seed.encode (s : Seed) : Document :=
  .record [("$ref", .text s.name), ("kind", .text s.kind.name)]

end SchemaTrace
