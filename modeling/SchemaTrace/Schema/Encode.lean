import SchemaTrace.Document.Encode
import SchemaTrace.Json.Printer
import SchemaTrace.Schema.Basic
/-!
Writing schemas as documents, the fields in the order of their declaration.
-/
namespace SchemaTrace

open Document

namespace Shape

mutual

def fields : Shape → Encode.Fields
  | .reference target => [("$ref", .text target)]
  | .array items minItems maxItems =>
    [("type", .text "array"), ("items", .record (fields items))] ++
      Encode.optional "minItems" .natural minItems ++ Encode.optional "maxItems" .natural maxItems
  | .object none => [("type", .text "object")]
  | .object (some properties) =>
    [("type", .text "object"), ("properties", .list (encodeParameters properties))]
  | .string values =>
    ("type", .text "string") :: Encode.optional "enum" (Encode.list .text) values
  | .integer => [("type", .text "integer")]
  | .number => [("type", .text "number")]
  | .boolean => [("type", .text "boolean")]
  | .any => [("type", .text "any")]
  | .unknown tag => [("type", .text tag)]

def encodeParameter : Property Shape → Document
  | ⟨name, optional, description, experimental, deprecated, shape⟩ =>
    .record (Encode.field "name" (.text name) ++ Encode.flag "optional" optional ++
      Encode.optional "description" .text description ++
      Encode.flag "experimental" experimental ++ Encode.flag "deprecated" deprecated ++
      fields shape)

def encodeParameters : List (Property Shape) → List Document
  | [] => []
  | p :: rest => encodeParameter p :: encodeParameters rest

end

end Shape

def TypeDef.encode (t : TypeDef) : Document :=
  .record (Encode.field "id" (.text t.id) ++ Encode.optional "description" .text t.description ++
    Encode.flag "experimental" t.experimental ++ Encode.flag "deprecated" t.deprecated ++
    t.shape.fields)

def Command.encode (c : Command) : Document :=
  .record (Encode.field "name" (.text c.name) ++
    Encode.optional "description" .text c.description ++
    Encode.flag "experimental" c.experimental ++ Encode.flag "deprecated" c.deprecated ++
    Encode.optional "parameters" (Encode.list Shape.encodeParameter) c.parameters ++
    Encode.optional "returns" (Encode.list Shape.encodeParameter) c.returns ++
    Encode.optional "redirect" .text c.redirect ++ Encode.flag "async" c.asynchronous)

def Event.encode (e : Event) : Document :=
  .record (Encode.field "name" (.text e.name) ++
    Encode.optional "description" .text e.description ++
    Encode.flag "experimental" e.experimental ++ Encode.flag "deprecated" e.deprecated ++
    Encode.optional "parameters" (Encode.list Shape.encodeParameter) e.parameters)

def Domain.encode (d : Domain) : Document :=
  .record (Encode.field "domain" (.text d.name) ++
    Encode.optional "description" .text d.description ++
    Encode.flag "experimental" d.experimental ++ Encode.flag "deprecated" d.deprecated ++
    Encode.optional "dependencies" (Encode.list .text) d.dependencies ++
    Encode.optional "types" (Encode.list TypeDef.encode) d.types ++
    Encode.optional "commands" (Encode.list Command.encode) d.commands ++
    Encode.optional "events" (Encode.list Event.encode) d.events)

def ProtocolVersion.encode (v : ProtocolVersion) : Document :=
  .record [("major", .text v.major), ("minor", .text v.minor)]

def Schema.encode (s : Schema) : Document :=
  .record (Encode.optional "version" ProtocolVersion.encode s.version ++
    Encode.field "domains" (Encode.list Domain.encode s.domains))

def Schema.toJson (s : Schema) : String := Json.pretty s.encode

end SchemaTrace
