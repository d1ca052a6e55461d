import SchemaTrace.Document.Decode
import SchemaTrace.Json.Reader
import SchemaTrace.Schema.Basic
/-!
Reading schemas from documents. A shape is a reference if it names its target; else the kind its
type tag stands for, if the fields of that kind fit; else an unknown shape with that tag.
-/
namespace SchemaTrace

open Document Document.RecordDecoder

namespace Shape

inductive Tag where
  | array
  | object
  | string
  | integer
  | number
  | boolean
  | any
  deriving DecidableEq, Repr

namespace Tag

def all : List Tag := [.array, .object, .string, .integer, .number, .boolean, .any]

def name : Tag → String
  | .array => "array"
  | .object => "object"
  | .string => "string"
  | .integer => "integer"
  | .number => "number"
  | .boolean => "boolean"
  | .any => "any"

/-- A tag is given by its name or by its place among the tags. -/
def decode : Decoder Tag
  | .text s => match all.find? (·.name = s) with
    | some tag => .ok tag
    | none => .error .mismatch
  | .natural n => match all[n]? with
    | some tag => .ok tag
    | none => .error .mismatch
  | doc => Decode.refuse doc

end Tag

def fieldsOf (shape : Decoder Shape) (parameter : Decoder Parameter) : Tag → RecordDecoder Shape
  | .array =>
    array <$> required "items" shape <*> optional "minItems" Decode.natural <*>
      optional "maxItems" Decode.natural
  | .object => object <$> optional "properties" (Decode.list parameter)
  | .string => string <$> optional "enum" (Decode.list Decode.text)
  | .integer => RecordDecoder.pure integer
  | .number => RecordDecoder.pure number
  | .boolean => RecordDecoder.pure boolean
  | .any => RecordDecoder.pure any

def asReference : Decoder Shape := (reference <$> required "$ref" Decode.text).byName

def asUnknown : Decoder Shape := (unknown <$> required "type" Decode.text).byName

/-- A shape with a known tag, given by name or as the list of its tag and fields. -/
def asKnown (shape : Decoder Shape) (parameter : Decoder Parameter) : Decoder Shape
  | .record fields => do
    let tag ← (required "type" Tag.decode).byName (.record fields)
    (fieldsOf shape parameter tag).decode (.record fields)
  | .list (tag :: items) => do
    let tag ← Tag.decode tag
    (fieldsOf shape parameter tag).decode (.list items)
  | doc => Decode.refuse doc

def parameterFields : RecordDecoder (Shape → Parameter) :=
  (fun name optional description experimental deprecated shape =>
      ⟨name, optional, description, experimental, deprecated, shape⟩) <$>
    required "name" Decode.text <*> flag "optional" <*> optional "description" Decode.text <*>
    flag "experimental" <*> flag "deprecated"

def parameterWith (shape : Decoder Shape) : Decoder Parameter := fun doc =>
  (parameterFields.withOthers (fun rest => shape (.record rest)) doc).map fun (p, shape) => p shape

def decodeAt : (levels : Nat) → Decoder Shape
  | 0, _ => .error .mismatch
  | levels + 1, doc =>
    match asReference doc with
    | .ok shape => .ok shape
    | .error _ =>
      match asKnown (decodeAt levels) (parameterWith (decodeAt levels)) doc with
      | .ok shape => .ok shape
      | .error _ => asUnknown doc

def decode : Decoder Shape := fun doc => decodeAt (doc.depth + 1) doc

end Shape

namespace Schema

def decodeParameter : Decoder Parameter := Shape.parameterWith Shape.decode

def typeDefFields : RecordDecoder (Shape → TypeDef) :=
  (fun id description experimental deprecated shape =>
      ⟨id, description, experimental, deprecated, shape⟩) <$>
    required "id" Decode.text <*> optional "description" Decode.text <*> flag "experimental" <*>
    flag "deprecated"

def decodeTypeDef : Decoder TypeDef := fun doc =>
  (typeDefFields.withOthers (fun rest => Shape.decode (.record rest)) doc).map fun (t, shape) =>
    t shape

def decodeCommand : Decoder Command := RecordDecoder.decode <|
  Command.mk <$> required "name" Decode.text <*> optional "description" Decode.text <*>
    flag "experimental" <*> flag "deprecated" <*>
    optional "parameters" (Decode.list decodeParameter) <*>
    optional "returns" (Decode.list decodeParameter) <*>
    optional "redirect" Decode.text <*> flag "async"

def decodeEvent : Decoder Event := RecordDecoder.decode <|
  Event.mk <$> required "name" Decode.text <*> optional "description" Decode.text <*>
    flag "experimental" <*> flag "deprecated" <*>
    optional "parameters" (Decode.list decodeParameter)

def decodeDomain : Decoder Domain := RecordDecoder.decode <|
  Domain.mk <$> required "domain" Decode.text <*> optional "description" Decode.text <*>
    flag "experimental" <*> flag "deprecated" <*>
    optional "dependencies" (Decode.list Decode.text) <*>
    optional "types" (Decode.list decodeTypeDef) <*>
    optional "commands" (Decode.list decodeCommand) <*>
    optional "events" (Decode.list decodeEvent)

def decodeVersion : Decoder ProtocolVersion := RecordDecoder.decode <|
  ProtocolVersion.mk <$> required "major" Decode.text <*> required "minor" Decode.text

def decode : Decoder Schema := RecordDecoder.decode <|
  Schema.mk <$> optional "version" decodeVersion <*>
    required "domains" (Decode.list decodeDomain)

def ofJson (source : String) : Except DecodeError Schema := Json.decodeText decode source

end Schema
end SchemaTrace
