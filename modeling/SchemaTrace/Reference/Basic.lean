import SchemaTrace.Document.Decode
import SchemaTrace.Document.Encode
import SchemaTrace.Schema.ByKind
import SchemaTrace.SourceFile
import SchemaTrace.Text.Position
/-!
References: the places in source code that give evidence of a member of the protocol, and the map
from every member to its references.
-/
namespace SchemaTrace

structure Location where
  source : Option SourceFile := none
  position : Position
  deriving DecidableEq, Repr

inductive Reference where
  /-- A tagged comment that mentions the member. -/
  | comment (location : Location) (text : String) (contentful : Bool)
  /-- A needle of the member. -/
  | occurrence (location : Location)
  deriving DecidableEq, Repr

namespace Reference

def location : Reference → Location
  | .comment location _ _ => location
  | .occurrence location => location

def source (r : Reference) : Option SourceFile := r.location.source

def isComment : Reference → Bool
  | .comment .. => true
  | .occurrence _ => false

end Reference

/-- References by qualified name; the lists keep the order of discovery. -/
abbrev ReferenceList := SortedMap (List Reference)

abbrev ReferenceMap := ByKind ReferenceList

namespace ReferenceMap

def empty : ReferenceMap := .fill fun _ => .empty

def about (m : ReferenceMap) (kind : MemberKind) (name : String) : List Reference :=
  ((m.get kind).get? name).getD []

def isReferenced (m : ReferenceMap) (kind : MemberKind) (name : String) : Bool :=
  !(m.about kind name).isEmpty

def referenced (m : ReferenceMap) (kind : MemberKind) : List String :=
  ((m.get kind).toList.filter fun (_, references) => !references.isEmpty).map (·.1)

def extendList (ours theirs : ReferenceList) : ReferenceList :=
  theirs.toList.foldl (fun m (name, references) => m.append name references) ours

def extend (ours theirs : ReferenceMap) : ReferenceMap :=
  .fill fun kind => extendList (ours.get kind) (theirs.get kind)

def count (m : ReferenceMap) : Nat :=
  (MemberKind.all.flatMap fun kind => (m.get kind).values.flatten).length

end ReferenceMap
end SchemaTrace
