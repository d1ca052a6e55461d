import SchemaTrace.Document.Decode
import SchemaTrace.Document.Encode
/-!
Repositories: which one to read, on which branch, and at which commit it was read.
-/
namespace SchemaTrace

open Document Document.RecordDecoder

structure Repository where
  owner : String
  name : String
  branch : String := "main"
  deriving DecidableEq, Repr

namespace Repository

def label (r : Repository) : String := r.owner ++ "/" ++ r.name ++ "@" ++ r.branch

def fields : RecordDecoder Repository :=
  Repository.mk <$> required "owner" Decode.text <*> required "repo" Decode.text <*>
    defaulted "branch" Decode.text "main"

def encode (r : Repository) : Document :=
  .record [("owner", .text r.owner), ("repo", .text r.name), ("branch", .text r.branch)]

end Repository

structure PinnedRepository where
  owner : String
  name : String
  commit : String
  deriving DecidableEq, Repr

namespace PinnedRepository

def fields : RecordDecoder PinnedRepository :=
  PinnedRepository.mk <$> required "owner" Decode.text <*> required "repo" Decode.text <*>
    required "commitSha" Decode.text

def encode (r : PinnedRepository) : Document :=
  .record [("owner", .text r.owner), ("repo", .text r.name), ("commitSha", .text r.commit)]

end PinnedRepository
end SchemaTrace
