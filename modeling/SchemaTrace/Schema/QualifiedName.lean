import SchemaTrace.Text.Basic
/-!
Names of members in the whole schema. A name is split at its first dot; a bare reference belongs
to the domain it stands in.
-/
namespace SchemaTrace

structure QualifiedName where
  domain : String
  member : String
  deriving DecidableEq, Repr

namespace QualifiedName

def toString (q : QualifiedName) : String := q.domain ++ "." ++ q.member

def parse? (name : String) : Option QualifiedName :=
  (Text.splitFirst? '.' name.toList).map fun (domain, member) =>
    ⟨String.ofList domain, String.ofList member⟩

def resolve (reference current : String) : QualifiedName :=
  (parse? reference).getD ⟨current, reference⟩

end QualifiedName
end SchemaTrace
