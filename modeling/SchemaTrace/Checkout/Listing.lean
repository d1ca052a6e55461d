import SchemaTrace.Checkout.IgnoreRule
import SchemaTrace.FileTree
/-!
Which entries of a directory a listing shows. Ignore files of the directory and of all directories
above it apply; rules for version control count only inside a repository, up to its root. Of all
rules of one kind the nearest file decides. Hidden entries show only if a rule keeps them.
-/
namespace SchemaTrace.Checkout

/-- The ignore files of one directory on the way from a listed directory to the root. -/
structure RuleLevel where
  /-- The names that lead from here to the listed directory. -/
  lead : List String
  general : IgnoreRules
  versioned : IgnoreRules
  excluded : IgnoreRules
  isRepository : Bool

namespace RuleLevel

def rulesAt (t : FileTree) (names : List String) : IgnoreRules :=
  match t.readBytes (Path.ofNames names) with
  | .ok content => .ofBytes content
  | .error _ => []

def read (t : FileTree) (place lead : List String) : RuleLevel where
  lead
  general := rulesAt t (place ++ [".ignore"])
  versioned := rulesAt t (place ++ [".gitignore"])
  excluded := rulesAt t (place ++ [".git", "info", "exclude"])
  isRepository := t.present (Path.ofNames (place ++ [".git"]))

/-- The levels from a directory outwards; `above` holds the names that lead to it, last first. -/
def outward (t : FileTree) (lead : List String) : (above : List String) → List RuleLevel
  | [] => [read t [] lead]
  | name :: above => read t (name :: above).reverse lead :: outward t (name :: lead) above

def withinRepository (levels : List RuleLevel) : List RuleLevel :=
  if levels.any (·.isRepository) then
    levels.takeWhile (!·.isRepository) ++ (levels.find? (·.isRepository)).toList
  else []

def nearest (rules : RuleLevel → IgnoreRules) (levels : List RuleLevel) (name : String)
    (isDirectory : Bool) : Option Verdict :=
  levels.findSome? fun level =>
    (rules level).verdict? ("/".intercalate (level.lead ++ [name])) isDirectory

def verdict? (levels : List RuleLevel) (name : String) (isDirectory : Bool) : Option Verdict :=
  let repository := withinRepository levels
  nearest general levels name isDirectory <|> nearest versioned repository name isDirectory <|>
    nearest excluded repository name isDirectory

end RuleLevel

def isHidden (name : String) : Bool := Text.startsWith ['.'] name.toList

def shows (levels : List RuleLevel) (name : String) (isDirectory : Bool) : Bool :=
  match RuleLevel.verdict? levels name isDirectory with
  | some .ignored => false
  | some .kept => true
  | none => !isHidden name

/-- The files and directories that a directory shows; links do not show. -/
def shownEntries (t : FileTree) (path : String) : Except FileError (List (String × FileNode)) := do
  let place ← t.canonical path
  let levels := RuleLevel.outward t [] place.reverse
  let entries ← t.entries path
  return entries.filter fun (name, node) =>
    match node with
    | .link _ => false
    | node => shows levels name node.isDirectory

end SchemaTrace.Checkout
