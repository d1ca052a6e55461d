import SchemaTrace.Comment.Index
import SchemaTrace.Reference.Basic
/-!
References and comment indexes as documents. A reference that has the two fields of a comment is
a comment; any other is an occurrence.
-/
namespace SchemaTrace

open Document Document.RecordDecoder

namespace SourceFile

def fields : RecordDecoder SourceFile :=
  SourceFile.mk <$> required "owner" Decode.text <*> required "repo" Decode.text <*>
    required "commitSha" Decode.text <*> required "path" Decode.text

def encode (s : SourceFile) : Document :=
  .record [("owner", .text s.owner), ("repo", .text s.repo), ("commitSha", .text s.commit),
    ("path", .text s.path)]

end SourceFile

namespace Location

def fields : RecordDecoder Location :=
  (fun source line column => ⟨source, ⟨line, column⟩⟩) <$>
    optional "source" SourceFile.fields.decode <*> required "line" Decode.natural <*>
    required "column" Decode.natural

def encodeFields (l : Location) : Encode.Fields :=
  Encode.optional "source" SourceFile.encode l.source ++
    [("line", .natural l.position.line), ("column", .natural l.position.column)]

end Location

namespace Reference

def commentFields : RecordDecoder (Location → Reference) :=
  (fun prose contentful location => .comment location prose contentful) <$>
    required "comment" Decode.text <*> required "isContentfulComment" Decode.bool

def decodeComment : Decoder Reference := fun doc =>
  (commentFields.withOthers Location.fields.ofFields doc).map fun (r, location) => r location

def decode : Decoder Reference := fun doc => do
  let doc ← content doc
  match decodeComment doc with
  | .ok r => return r
  | .error _ => return .occurrence (← Location.fields.decode doc)

def encode : Reference → Document
  | .comment location prose contentful =>
    .record (location.encodeFields ++
      [("comment", .text prose), ("isContentfulComment", .bool contentful)])
  | .occurrence location => .record location.encodeFields

end Reference

namespace ReferenceMap

def decodeList : Decoder ReferenceList := Decode.map (Decode.list Reference.decode)

def decode : Decoder ReferenceMap := RecordDecoder.decode <|
  ByKind.mk <$> required "commands" decodeList <*> required "events" decodeList <*>
    required "types" decodeList

def encodeList (l : ReferenceList) : Document := Encode.map (Encode.list Reference.encode) l

def encode (m : ReferenceMap) : Document :=
  .record [("commands", encodeList m.commands), ("events", encodeList m.events),
    ("types", encodeList m.types)]

end ReferenceMap

namespace Comment

def Annotation.encode (a : Annotation) : Document :=
  .record [("line", .natural a.position.line), ("column", .natural a.position.column),
    ("cleanedText", .text a.text), ("hasAdditionalContent", .bool a.contentful)]

def Annotation.decode : Decoder Annotation := RecordDecoder.decode <|
  (fun line column prose contentful => ⟨⟨line, column⟩, prose, contentful⟩) <$>
    required "line" Decode.natural <*> required "column" Decode.natural <*>
    required "cleanedText" Decode.text <*> required "hasAdditionalContent" Decode.bool

def FileAnnotation.encode (a : FileAnnotation) : Document :=
  .record [("source", a.source.encode), ("comment", a.comment.encode)]

def FileAnnotation.decode : Decoder FileAnnotation := RecordDecoder.decode <|
  FileAnnotation.mk <$> required "source" SourceFile.fields.decode <*>
    required "comment" Annotation.decode

def Index.encode (index : Index) : Document := Encode.map (Encode.list FileAnnotation.encode) index

def Index.decode : Decoder Index := Decode.map (Decode.list FileAnnotation.decode)

end Comment
end SchemaTrace
