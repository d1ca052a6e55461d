/-!
The identity of a file in a repository at one commit.
-/
namespace SchemaTrace

structure SourceFile where
  owner : String
  repo : String
  commit : String
  path : String
  deriving DecidableEq, Repr

end SchemaTrace
