import SchemaTrace.Comment.Index
import SchemaTrace.Convention.Basic
import SchemaTrace.Needle.Search
import SchemaTrace.Reference.Basic
import SchemaTrace.Snapshot.Basic
import SchemaTrace.Text.Position
/-!
Evidence for the members of a schema in a snapshot: first the tagged comments that mention a
member, then the occurrences of its needles in the files of the subset its kind is searched in.
-/
namespace SchemaTrace

/-- A convention that compiled, with the filters of its subsets and the tag of comments. -/
structure Scanner where
  convention : Convention
  filters : SortedMap PathFilter
  tag : String

namespace Scanner

def ofConvention (convention : Convention) (tag : String) : Except Error Scanner := do
  let filters ← convention.compile
  return ⟨convention, filters, tag⟩

def filter (s : Scanner) (subset : String) : Except Error PathFilter :=
  match s.filters.get? subset with
  | some filter => .ok filter
  | none => .error (.pattern (.unknownSubset s.convention.displayName subset))

def indexComments (s : Scanner) (snapshot : Snapshot) : Comment.Index :=
  let filters := s.convention.comments.filterMap s.filters.get?
  let files := snapshot.select fun path => filters.any (PathFilter.admits · path)
  Comment.Index.ofFiles s.tag
    (files.map fun (path, content) => (snapshot.sourceFile path, content))

def referenceOfComment (a : Comment.FileAnnotation) : Reference :=
  .comment ⟨some a.source, a.comment.position⟩ a.comment.text a.comment.contentful

def occurrencesIn (matcher : Needle.Matcher) (snapshot : Snapshot) (file : String × String) :
    List Reference :=
  let content := file.2.toList
  let lines := LineIndex.ofText content
  (matcher.findAll content).map fun offset =>
    .occurrence ⟨some (snapshot.sourceFile file.1), lines.locate offset⟩

def occurrences (s : Scanner) (snapshot : Snapshot) (kind : MemberKind) (domain member : String) :
    Except Error (List Reference) := do
  match s.convention.rules.get kind with
  | none => return []
  | some rule =>
    let filter ← s.filter rule.subset
    match Needle.Matcher.ofNeedles? (rule.expand domain member) with
    | none => throw (.pattern .noNeedles)
    | some matcher =>
      return (snapshot.select filter.admits).flatMap (occurrencesIn matcher snapshot)

def evidence (s : Scanner) (comments : Comment.Index) (snapshot : Snapshot) (kind : MemberKind)
    (domain member : String) : Except Error (List Reference) := do
  let found ← s.occurrences snapshot kind domain member
  return (comments.about (domain ++ "." ++ member)).map referenceOfComment ++ found

structure Target where
  kind : MemberKind
  domain : String
  member : String
  deriving DecidableEq, Repr

def targets (schema : Schema) : List Target :=
  schema.domains.flatMap fun d => MemberKind.all.flatMap fun kind =>
    (d.memberNames kind).map fun member => ⟨kind, d.name, member⟩

def collect (s : Scanner) (comments : Comment.Index) (snapshot : Snapshot) (found : ReferenceMap) :
    List Target → Except Error ReferenceMap
  | [] => .ok found
  | t :: rest => do
    let references ← s.evidence comments snapshot t.kind t.domain t.member
    collect s comments snapshot
      (found.modify t.kind fun list => list.append (t.domain ++ "." ++ t.member) references) rest

def extract (s : Scanner) (comments : Comment.Index) (snapshot : Snapshot) (schema : Schema) :
    Except Error ReferenceMap :=
  s.collect comments snapshot .empty (targets schema)

end Scanner
end SchemaTrace
