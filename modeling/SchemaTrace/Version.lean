import SchemaTrace.Document.Decode
import SchemaTrace.Document.Encode
import SchemaTrace.Memo.Kept
import SchemaTrace.Model
import SchemaTrace.Repository
/-!
Versions of the protocol: a model with a description, loaded when it is first needed and kept. A
failed load is tried again by the next call.
-/
namespace SchemaTrace

open Document Document.RecordDecoder

structure VersionMetadata where
  slug : String
  name : String
  description : String := ""
  dataSource : Option PinnedRepository := none
  /-- Whether the version is published as such and not derived. -/
  published : Bool := false
  deriving DecidableEq, Repr

namespace VersionMetadata

def decode : Decoder VersionMetadata := RecordDecoder.decode <|
  VersionMetadata.mk <$> required "slug" Decode.text <*> required "name" Decode.text <*>
    defaulted "description" Decode.text "" <*>
    optional "dataSource" PinnedRepository.fields.decode <*> flag "isAvailableUpstream"

def encode (m : VersionMetadata) : Document :=
  .record ([("slug", .text m.slug), ("name", .text m.name),
    ("description", .text m.description)] ++
    Encode.optional "dataSource" PinnedRepository.encode m.dataSource ++
    [("isAvailableUpstream", .bool m.published)])

def subject (m : VersionMetadata) : String := s!"protocol version {m.slug}"

end VersionMetadata

structure Version where
  metadata : VersionMetadata
  model : Kept Model := .nothing

namespace Version

def ofSchema (metadata : VersionMetadata) (schema : Schema) : Except Error Version := do
  let model ← Model.ofSchema schema
  return ⟨metadata, .value model⟩

def status (v : Version) : Memo.Status := v.model.status

def modelOf (metadata : VersionMetadata) (loaded : Except Error Schema) : Outcome Model :=
  match loaded.bind Model.ofSchema with
  | .ok model => .ok model
  | .error e => .error ⟨metadata.subject, e.message⟩

/-- The model; `load` gives what loading the schema gives now, should that be needed. -/
def getModel (v : Version) (load : Unit → Except Error Schema) : Outcome Model × Version :=
  match v.model with
  | .value model => (.ok model, v)
  | _ =>
    let outcome := modelOf v.metadata (load ())
    (outcome, { v with model := .ofOutcome outcome })

end Version
end SchemaTrace
