import SchemaTrace.Configuration.Basic
import SchemaTrace.Convention.Document
/-!
Configurations as documents. Every field is optional but the id of an entry.
-/
namespace SchemaTrace

open Document Document.RecordDecoder

namespace ConfiguredEntry

def fields (lists : Bool) : RecordDecoder ConfiguredEntry :=
  ConfiguredEntry.mk <$> required "id" Decode.text <*> optional "preset" Decode.text <*>
    optional "convention" (Convention.decode lists) <*>
    optional "merge" (Decode.list Decode.text) <*> optional "checkout" Decode.text

def encode (e : ConfiguredEntry) : Document :=
  .record ([("id", .text e.id)] ++ Encode.optional "preset" .text e.preset ++
    Encode.optional "convention" Convention.encode e.convention ++
    Encode.optional "merge" (Encode.list .text) e.merge ++
    Encode.optional "checkout" .text e.checkout)

end ConfiguredEntry

namespace Configuration

def fields (lists : Bool) : RecordDecoder Configuration :=
  Configuration.mk <$> defaulted "tag" Decode.text Comment.defaultTag <*>
    defaulted "implementations" (Decode.list ((ConfiguredEntry.fields lists).decodeAs lists)) []

/-- Reads a configuration; `lists` tells whether records may be given as lists. -/
def decode (lists : Bool) : Decoder Configuration := (fields lists).decodeAs lists

def encode (c : Configuration) : Document :=
  .record [("tag", .text c.tag), ("implementations", Encode.list ConfiguredEntry.encode c.entries)]

end Configuration
end SchemaTrace
