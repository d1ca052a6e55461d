import SchemaTrace.PathFilter
import SchemaTrace.Repository
import SchemaTrace.Schema.ByKind
import SchemaTrace.Snapshot.Scope
import SchemaTrace.SortedMap
/-!
Conventions: where the sources of an implementation live, how they split into subsets, and which
needles it uses for each kind of member. A convention is compiled into the filters of its subsets,
which checks every name and template in it.
-/
namespace SchemaTrace

def allFiles : String := "all"

structure SubsetSpec where
  included : List String := []
  excluded : List String := []
  deriving DecidableEq, Repr

structure NeedleRule where
  subset : String := allFiles
  needles : List String
  deriving DecidableEq, Repr

def NeedleRule.expand (rule : NeedleRule) (domain member : String) : List Text :=
  rule.needles.map fun template => Template.expand template.toList domain.toList member.toList

structure Convention where
  displayName : String
  repo : Repository
  scope : Scope
  subsets : SortedMap SubsetSpec := .empty
  rules : ByKind (Option NeedleRule) := .fill fun _ => none
  /-- The subsets whose tagged comments are indexed. -/
  comments : List String := []
  deriving DecidableEq

namespace Convention

def filtersFrom (filters : SortedMap PathFilter) :
    List (String × SubsetSpec) → Except Error (SortedMap PathFilter)
  | [] => .ok filters
  | (name, spec) :: rest => do
    let filter ← PathFilter.ofPatterns spec.included spec.excluded
    filtersFrom (filters.insert name filter) rest

def referredSubsets (c : Convention) : List String :=
  (MemberKind.all.filterMap fun kind => (c.rules.get kind).map (·.subset)) ++ c.comments

def checkSubsets (c : Convention) (filters : SortedMap PathFilter) : List String → Except Error Unit
  | [] => .ok ()
  | name :: rest =>
    if filters.contains name then checkSubsets c filters rest
    else .error (.pattern (.unknownSubset c.displayName name))

def checkTemplates : List String → Except Error Unit
  | [] => .ok ()
  | template :: rest =>
    match Template.check template.toList with
    | .error fault => .error (.pattern (.template fault))
    | .ok () => checkTemplates rest

def checkRule (c : Convention) (kind : MemberKind) : Except Error Unit :=
  match c.rules.get kind with
  | none => .ok ()
  | some rule =>
    if rule.needles.isEmpty then .error (.pattern (.ruleWithoutNeedles c.displayName kind))
    else checkTemplates rule.needles

def compile (c : Convention) : Except Error (SortedMap PathFilter) := do
  let filters ← filtersFrom (SortedMap.empty.insert allFiles .all) c.subsets.toList
  checkSubsets c filters c.referredSubsets
  checkRule c .command
  checkRule c .event
  checkRule c .type
  return filters

end Convention
end SchemaTrace
