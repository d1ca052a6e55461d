import SchemaTrace.Convention.Basic
/-!
Conventions as documents. The fields of the scope stand among those of the convention.
-/
namespace SchemaTrace

open Document Document.RecordDecoder

def Document.RecordDecoder.decodeAs {α : Type} (lists : Bool) (r : RecordDecoder α) : Decoder α :=
  if lists then r.decode else r.byName

namespace SubsetSpec

def fields : RecordDecoder SubsetSpec :=
  SubsetSpec.mk <$> defaulted "include" (Decode.list Decode.text) [] <*>
    defaulted "exclude" (Decode.list Decode.text) []

def encode (s : SubsetSpec) : Document :=
  .record [("include", Encode.list .text s.included), ("exclude", Encode.list .text s.excluded)]

end SubsetSpec

namespace NeedleRule

def fields : RecordDecoder NeedleRule :=
  NeedleRule.mk <$> defaulted "subset" Decode.text allFiles <*>
    required "needles" (Decode.list Decode.text)

def encode (r : NeedleRule) : Document :=
  .record [("subset", .text r.subset), ("needles", Encode.list .text r.needles)]

end NeedleRule

namespace Convention

def fields (lists : Bool) : RecordDecoder (Scope → Convention) :=
  (fun displayName repo subsets commands events types comments scope =>
      ⟨displayName, repo, scope, subsets, ⟨commands, events, types⟩, comments⟩) <$>
    required "display_name" Decode.text <*>
    required "repo" (Repository.fields.decodeAs lists) <*>
    defaulted "subsets" (Decode.map (SubsetSpec.fields.decodeAs lists)) .empty <*>
    optional "commands" (NeedleRule.fields.decodeAs lists) <*>
    optional "events" (NeedleRule.fields.decodeAs lists) <*>
    optional "types" (NeedleRule.fields.decodeAs lists) <*>
    defaulted "comments" (Decode.list Decode.text) []

/-- Reads a convention; `lists` tells whether records inside may be given as lists. -/
def decode (lists : Bool) : Decoder Convention := fun doc =>
  ((fields lists).withOthers Scope.fields.ofFields doc).map fun (c, scope) => c scope

def encode (c : Convention) : Document :=
  .record ([("display_name", .text c.displayName), ("repo", c.repo.encode)] ++
    c.scope.encodeFields ++ [("subsets", Encode.map SubsetSpec.encode c.subsets)] ++
    Encode.optional "commands" NeedleRule.encode c.rules.commands ++
    Encode.optional "events" NeedleRule.encode c.rules.events ++
    Encode.optional "types" NeedleRule.encode c.rules.types ++
    [("comments", Encode.list .text c.comments)])

end Convention
end SchemaTrace
