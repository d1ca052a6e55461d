import SchemaTrace.Proofs.Snapshot.Moves

/-! What a provider says without a cache in between, and why a cache that was filled by the same
provider, in whatever order and with whatever failures, says the same. -/

namespace SchemaTrace

namespace Provider

def tree (p : Provider) (commit : String) : (levels : Nat) → (path : String) → Outcome (List String)
  | 0, path => throw ⟨s!"directory {path}", "too many levels of directories"⟩
  | levels + 1, path => do
    let entries ← p.list commit path
    let nested ← (entries.filterMap Entry.directoryPath?).mapM (tree p commit levels)
    return entries.filterMap Entry.filePath? ++ nested.flatten

def listing (p : Provider) (repo : Repository) (root : String) : Outcome (List String) := do
  let commit ← p.head repo
  p.tree commit (p.depth + 1) root

def content (p : Provider) (repo : Repository) (path : String) : Outcome String := do
  let commit ← p.head repo
  p.file commit path

def snapshotOf (p : Provider) (repo : Repository) (scope : Scope) : Outcome Snapshot := do
  let commit ← p.head repo
  let listed ← scope.roots.mapM (p.tree commit (p.depth + 1))
  let paths := SnapshotCache.scopePaths scope listed.flatten
  let contents ← paths.mapM (p.content repo)
  return .ofContents repo.owner repo.name commit
    (SnapshotCache.nodup_scopePaths scope listed.flatten) contents

/-- An outcome is the one that is due, or a failure of a provider that is not what it should be. -/
def Due {α : Type} (actual whole : Provider) (outcome due : Outcome α) : Prop :=
  outcome = due ∨ actual ≠ whole ∧ ∃ e, outcome = .error e

/-- A provider answers as another one does, or fails. -/
structure Impairs (actual whole : Provider) : Prop where
  head : ∀ repo, Due actual whole (actual.head repo) (whole.head repo)
  list : ∀ commit path, Due actual whole (actual.list commit path) (whole.list commit path)
  file : ∀ commit path, Due actual whole (actual.file commit path) (whole.file commit path)
  depth : actual.depth = whole.depth

theorem Impairs.refl (p : Provider) : p.Impairs p :=
  ⟨fun _ => .inl rfl, fun _ _ => .inl rfl, fun _ _ => .inl rfl, rfl⟩

theorem Due.of_ok {α : Type} {actual whole : Provider} {outcome due : Outcome α}
    (given : Due actual whole outcome due) {a : α} (ok : outcome = .ok a) : due = .ok a := by
  rcases given with same | ⟨-, e, failed⟩
  · exact same.symm.trans ok
  · rw [failed] at ok
    cases ok

end Provider

namespace SnapshotCache

open Provider (Due Impairs)

structure Agrees (p : Provider) (repo : Repository) (scope : Scope) (c : SnapshotCache) : Prop where
  sameRepo : c.repo = repo
  sameScope : c.scope = scope
  commit : ∀ commit, c.At commit → p.head repo = .ok commit
  files : ∀ path content, c.HasFile path content → p.content repo path = .ok content
  snapshot : ∀ s, c.snapshot = .value s → p.snapshotOf repo scope = .ok s

/-- A step on an actual provider gives what is due of the whole one, and what it makes the cache
hold is what that one says. -/
def Follows {α : Type} (actual whole : Provider) (repo : Repository) (scope : Scope)
    (step : Fetching α) (due : Outcome α) : Prop :=
  ∀ c, Agrees whole repo scope c →
    Agrees whole repo scope (c.run step).2 ∧ Due actual whole (c.run step).1 due

variable {α β : Type} {actual whole : Provider} {repo : Repository} {scope : Scope}
  {c c' : SnapshotCache}

section Rules

variable {step : Fetching α} {due : Outcome α} {next : α → Fetching β} {later : α → Outcome β}

theorem Follows.pure (a : α) : Follows actual whole repo scope (Pure.pure a) (Pure.pure a) :=
  fun _ agrees => ⟨agrees, .inl rfl⟩

theorem Follows.throw (e : FetchError) :
    Follows actual whole repo scope (MonadExcept.throw e : Fetching α) (.error e) :=
  fun _ agrees => ⟨agrees, .inl rfl⟩

theorem Follows.bind (first : Follows actual whole repo scope step due)
    (second : ∀ a, due = .ok a → Follows actual whole repo scope (next a) (later a)) :
    Follows actual whole repo scope (step >>= next) (due >>= later) := by
  intro c agrees
  obtain ⟨agrees', given⟩ := first c agrees
  rw [run_bind]
  rcases result : c.run step with ⟨e | a, c'⟩
  · rw [result] at agrees' given
    refine ⟨agrees', ?_⟩
    -- Either the failure is due, or the provider is impaired; both end the later step, too.
    rcases given with same | impaired
    · exact .inl (by rw [← same]; rfl)
    · exact .inr ⟨impaired.1, e, rfl⟩
  · rw [result] at agrees' given
    have ok : due = .ok a := given.of_ok rfl
    rw [ok]
    exact second a ok c' agrees'

theorem Follows.get_bind {next : SnapshotCache → Fetching β} {due : Outcome β}
    (each : ∀ seen : SnapshotCache, seen.repo = repo → seen.scope = scope →
      Follows actual whole repo scope (next seen) due) :
    Follows actual whole repo scope (get >>= next) due :=
  fun c agrees => each c agrees.sameRepo agrees.sameScope c agrees

theorem Follows.mapM {step : β → Fetching α} {due : β → Outcome α}
    (each : ∀ b, Follows actual whole repo scope (step b) (due b)) (items : List β) :
    Follows actual whole repo scope (items.mapM step) (items.mapM due) := by
  induction items with
  | nil => exact Follows.pure []
  | cons b rest ih =>
    rw [List.mapM_cons, List.mapM_cons]
    apply Follows.bind (each b)
    intro a _
    apply Follows.bind ih
    intro results _
    exact Follows.pure (a :: results)

end Rules

theorem follows_ask {request : Request} {answer due : Outcome α}
    (given : Due actual whole answer due) :
    Follows actual whole repo scope (ask request answer) due := by
  intro c agrees
  rw [run_ask]
  exact ⟨⟨agrees.sameRepo, agrees.sameScope, agrees.commit, agrees.files, agrees.snapshot⟩, given⟩

theorem follows_resolveCommit (impairs : actual.Impairs whole) :
    Follows actual whole repo scope (resolveCommit actual) (whole.head repo) := by
  intro c agrees
  obtain rfl := agrees.sameRepo
  by_cases held : ∃ commit, c.At commit
  · obtain ⟨commit, held⟩ := held
    rw [run_resolveCommit_of_held held]
    exact ⟨agrees, .inl (agrees.commit commit held).symm⟩
  · rw [run_resolveCommit_of_missing (not_exists.mp held)]
    have given := impairs.head c.repo
    refine ⟨⟨rfl, agrees.sameScope, ?_, agrees.files, agrees.snapshot⟩, given⟩
    intro commit held
    exact given.of_ok (Kept.ofOutcome_eq_value_iff.mp held)

theorem follows_listFrom (impairs : actual.Impairs whole) (commit : String) (levels : Nat)
    (path : String) : Follows actual whole repo scope (listFrom actual commit levels path)
      (whole.tree commit levels path) := by
  induction levels generalizing path with
  | zero => exact Follows.throw _
  | succ levels ih =>
    unfold listFrom Provider.tree
    apply Follows.bind (follows_ask (impairs.list commit path))
    intro entries _
    apply Follows.bind (Follows.mapM ih _)
    intro nested _
    exact Follows.pure _

theorem follows_listTree (impairs : actual.Impairs whole) (root : String) :
    Follows actual whole repo scope (listTree actual root) (whole.listing repo root) := by
  unfold listTree Provider.listing
  rw [impairs.depth]
  apply Follows.bind (follows_resolveCommit impairs)
  intro commit _
  exact follows_listFrom impairs commit (whole.depth + 1) root

theorem follows_getFile (impairs : actual.Impairs whole) (path : String) :
    Follows actual whole repo scope (getFile actual path) (whole.content repo path) := by
  apply Follows.bind (follows_resolveCommit impairs)
  intro commit head c agrees
  have due : whole.content repo path = whole.file commit path := by
    rw [Provider.content, head]
    rfl
  rw [run_get_bind]
  split
  · next content held =>
    have said := agrees.files path content held
    rw [due] at said
    exact ⟨agrees, .inl said.symm⟩
  · rw [run_record, run_ask]
    have given := impairs.file commit path
    refine ⟨⟨agrees.sameRepo, agrees.sameScope, agrees.commit, ?_, agrees.snapshot⟩, given⟩
    intro other content held
    unfold HasFile at held
    rw [SortedMap.get?_insert] at held
    by_cases same : other = path
    · subst same
      rw [if_pos rfl, Option.some.injEq, Kept.ofOutcome_eq_value_iff] at held
      rw [due]
      exact given.of_ok held
    · rw [if_neg same] at held
      exact agrees.files other content held

theorem follows_buildSnapshot (impairs : actual.Impairs whole) :
    Follows actual whole repo scope (buildSnapshot actual) (whole.snapshotOf repo scope) := by
  unfold buildSnapshot Provider.snapshotOf
  rw [impairs.depth]
  apply Follows.bind (follows_resolveCommit impairs)
  intro commit _
  apply Follows.get_bind
  rintro seen rfl rfl
  apply Follows.bind (Follows.mapM (follows_listFrom impairs commit (whole.depth + 1)) _)
  intro listed _
  apply Follows.bind (Follows.mapM (follows_getFile impairs) _)
  intro contents _
  exact Follows.pure _

theorem follows_getSnapshot (impairs : actual.Impairs whole) :
    Follows actual whole repo scope (getSnapshot actual) (whole.snapshotOf repo scope) := by
  intro c agrees
  by_cases held : ∃ s, c.snapshot = .value s
  · obtain ⟨s, held⟩ := held
    rw [run_getSnapshot_of_held held]
    exact ⟨agrees, .inl (agrees.snapshot s held).symm⟩
  · obtain ⟨agrees', given⟩ := follows_buildSnapshot impairs c agrees
    rw [run_getSnapshot_of_missing (not_exists.mp held)]
    refine ⟨⟨agrees'.sameRepo, agrees'.sameScope, agrees'.commit, agrees'.files, ?_⟩, given⟩
    intro s held
    exact given.of_ok (Kept.ofOutcome_eq_value_iff.mp held)

end SnapshotCache
end SchemaTrace
