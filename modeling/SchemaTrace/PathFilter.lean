import SchemaTrace.Error
import SchemaTrace.Glob.Match
/-!
Filters over the paths of a repository: one of the patterns to include must match, unless there
are none, and no pattern to exclude may match.
-/
namespace SchemaTrace

structure PathFilter where
  /-- The patterns of which one must match; `none` admits every path. -/
  included : Option (List (List Glob.Token))
  excluded : List (List Glob.Token)

namespace PathFilter

def patterns : List String → Except Error (List (List Glob.Token))
  | [] => .ok []
  | pattern :: rest =>
    match Glob.parse pattern with
    | .error e => .error (.pattern (.glob e))
    | .ok tokens => (patterns rest).map (tokens :: ·)

def ofPatterns (included excluded : List String) : Except Error PathFilter := do
  let included ← if included.isEmpty then pure none else (patterns included).map some
  let excluded ← patterns excluded
  return ⟨included, excluded⟩

def all : PathFilter := ⟨none, []⟩

def admits (f : PathFilter) (path : String) : Bool :=
  (f.included.all fun patterns => patterns.any (Glob.isMatch · path)) &&
    !f.excluded.any (Glob.isMatch · path)

end PathFilter
end SchemaTrace
