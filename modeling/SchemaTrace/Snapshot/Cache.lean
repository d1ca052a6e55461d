import SchemaTrace.Memo.Kept
import SchemaTrace.Provider.Basic
import SchemaTrace.Snapshot.Basic
import SchemaTrace.Snapshot.Scope
import SchemaTrace.SortedMap
/-!
Snapshot caches. A cache pins a branch to the commit it points at when first asked, fetches each
file once, and keeps the snapshot of its scope once that is complete. What fails is asked for
again by the next call; what succeeded is kept.
-/
namespace SchemaTrace

structure SnapshotCache where
  repo : Repository
  scope : Scope
  commit : Kept String := .nothing
  files : SortedMap (Kept String) := .empty
  snapshot : Kept Snapshot := .nothing
  /-- What the provider was asked, the last request first. -/
  requests : List Request := []

/-- A step that may ask the provider and fail; what the cache learned before that stays. -/
abbrev Fetching (α : Type) := ExceptT FetchError (StateM SnapshotCache) α

namespace SnapshotCache

variable {α : Type}

def ask (request : Request) (answer : Outcome α) : Fetching α := do
  modify fun c => { c with requests := request :: c.requests }
  answer

def record (step : Fetching α) (keep : Outcome α → SnapshotCache → SnapshotCache) : Fetching α :=
  ExceptT.mk do
    let outcome ← step.run
    modify (keep outcome)
    return outcome

def resolveCommit (p : Provider) : Fetching String := do
  let c ← get
  match c.commit with
  | .value commit => return commit
  | _ => record (ask .head (p.head c.repo)) fun outcome c =>
      { c with commit := .ofOutcome outcome }

/-- Every file below a directory: its own files first, then those of each subdirectory. -/
def listFrom (p : Provider) (commit : String) : (levels : Nat) → (path : String) →
    Fetching (List String)
  | 0, path => throw ⟨s!"directory {path}", "too many levels of directories"⟩
  | levels + 1, path => do
    let entries ← ask (.list commit path) (p.list commit path)
    let nested ← (entries.filterMap Entry.directoryPath?).mapM (listFrom p commit levels)
    return entries.filterMap Entry.filePath? ++ nested.flatten

def listTree (p : Provider) (root : String) : Fetching (List String) := do
  let commit ← resolveCommit p
  listFrom p commit (p.depth + 1) root

def getFile (p : Provider) (path : String) : Fetching String := do
  let commit ← resolveCommit p
  let c ← get
  match c.files.get? path with
  | some (.value content) => return content
  | _ => record (ask (.file commit path) (p.file commit path)) fun outcome c =>
      { c with files := c.files.insert path (.ofOutcome outcome) }

def firstOccurrences (seen : List String) : List String → List String
  | [] => []
  | path :: rest =>
    if path ∈ seen then firstOccurrences seen rest
    else path :: firstOccurrences (path :: seen) rest

theorem mem_firstOccurrences {path : String} {seen paths : List String} :
    path ∈ firstOccurrences seen paths ↔ path ∈ paths ∧ path ∉ seen := by
  induction paths generalizing seen with
  | nil => simp [firstOccurrences]
  | cons next rest ih =>
    unfold firstOccurrences
    by_cases known : next ∈ seen
    · rw [if_pos known, ih, List.mem_cons]
      constructor
      · intro given
        exact ⟨.inr given.1, given.2⟩
      · intro given
        rcases given with ⟨rfl | later, unseen⟩
        · exact absurd known unseen
        · exact ⟨later, unseen⟩
    · rw [if_neg known, List.mem_cons, ih, List.mem_cons, List.mem_cons]
      constructor
      · intro given
        rcases given with rfl | ⟨later, unseen⟩
        · exact ⟨.inl rfl, known⟩
        · exact ⟨.inr later, fun inside => unseen (.inr inside)⟩
      · intro given
        rcases given with ⟨rfl | later, unseen⟩
        · exact .inl rfl
        · by_cases same : path = next
          · exact .inl same
          · exact .inr ⟨later, fun inside => inside.elim same unseen⟩

theorem nodup_firstOccurrences (seen paths : List String) :
    (firstOccurrences seen paths).Nodup := by
  induction paths generalizing seen with
  | nil => exact .nil
  | cons next rest ih =>
    unfold firstOccurrences
    by_cases known : next ∈ seen
    · rw [if_pos known]
      exact ih seen
    · rw [if_neg known]
      refine List.nodup_cons.mpr ⟨?_, ih (next :: seen)⟩
      intro member
      exact (mem_firstOccurrences.mp member).2 List.mem_cons_self

def scopePaths (scope : Scope) (listed : List String) : List String :=
  firstOccurrences [] (listed.filter scope.keeps ++ scope.files)

theorem nodup_scopePaths (scope : Scope) (listed : List String) :
    (scopePaths scope listed).Nodup := nodup_firstOccurrences [] _

def buildSnapshot (p : Provider) : Fetching Snapshot := do
  let commit ← resolveCommit p
  let c ← get
  let listed ← c.scope.roots.mapM (listFrom p commit (p.depth + 1))
  let paths := scopePaths c.scope listed.flatten
  let contents ← paths.mapM (getFile p)
  return .ofContents c.repo.owner c.repo.name commit
    (nodup_scopePaths c.scope listed.flatten) contents

def getSnapshot (p : Provider) : Fetching Snapshot := do
  match (← get).snapshot with
  | .value snapshot => return snapshot
  | _ => record (buildSnapshot p) fun outcome c => { c with snapshot := .ofOutcome outcome }

def status (c : SnapshotCache) : Memo.Status := c.snapshot.status

def run (c : SnapshotCache) (step : Fetching α) : Outcome α × SnapshotCache :=
  (ExceptT.run step).run c

end SnapshotCache
end SchemaTrace
