import SchemaTrace.Proofs.Snapshot.History
import SchemaTrace.Proofs.Snapshot.Reading

/-! Failures leave no trace. While targets of a provider in memory break and recover, a cache keeps
what it fetched; and once nothing is broken any more its snapshot is the one that a fresh cache
gets. -/

namespace SchemaTrace

namespace MemoryProvider

def breaking (m : MemoryProvider) (broken : SortedMap String) : MemoryProvider := { m with broken }

def whole (m : MemoryProvider) : Provider := (m.breaking .empty).provider

theorem guard_eq_or_error {α : Type} (m : MemoryProvider) (target : String)
    (answer : Except FetchError α) :
    m.guard target answer = answer ∨ ∃ e, m.guard target answer = .error e := by
  unfold guard
  cases m.broken.get? target with
  | none => exact .inl rfl
  | some reason => exact .inr ⟨_, rfl⟩

theorem impairs_whole (m : MemoryProvider) (broken : SortedMap String) :
    (m.breaking broken).provider.Impairs m.whole := by
  have due {α : Type} (ask : Provider → Outcome α)
      (given : ask (m.breaking broken).provider = ask m.whole ∨
        ∃ e, ask (m.breaking broken).provider = .error e) :
      Provider.Due (m.breaking broken).provider m.whole (ask (m.breaking broken).provider)
        (ask m.whole) := by
    -- Targets that nothing is asked about may be all that is broken.
    by_cases same : (m.breaking broken).provider = m.whole
    · exact .inl (by rw [same])
    · exact given.imp_right fun failed => ⟨same, failed⟩
  constructor
  · intro repo
    exact due (fun p => p.head repo) (guard_eq_or_error _ _ _)
  · intro commit path
    exact due (fun p => p.list commit path) (guard_eq_or_error _ _ _)
  · intro commit path
    exact due (fun p => p.file commit path) (guard_eq_or_error _ _ _)
  · rfl

end MemoryProvider

namespace SnapshotCache

variable {repo : Repository} {scope : Scope} {c : SnapshotCache} {m : MemoryProvider}

theorem agrees_fresh (p : Provider) (repo : Repository) (scope : Scope) :
    Agrees p repo scope { repo, scope } where
  sameRepo := rfl
  sameScope := rfl
  commit commit held := by cases held
  files path content held := by simp [HasFile, SortedMap.get?_empty] at held
  snapshot s held := by cases held

theorem Agrees.run_getSnapshot {p : Provider} (agrees : Agrees p repo scope c) :
    (c.run (getSnapshot p)).1 = p.snapshotOf repo scope := by
  rcases (follows_getSnapshot (Provider.Impairs.refl p) c agrees).2 with same | impaired
  · exact same
  · exact absurd rfl impaired.1

theorem Agrees.perform {actual whole : Provider} (impairs : actual.Impairs whole)
    (agrees : Agrees whole repo scope c) (call : Call) :
    Agrees whole repo scope (c.perform actual call).2 := by
  cases call with
  | commit => exact (follows_resolveCommit impairs c agrees).1
  | tree root => exact (follows_listTree impairs root c agrees).1
  | file path => exact (follows_getFile impairs path c agrees).1
  | snapshot => exact (follows_getSnapshot impairs c agrees).1

theorem failed_of_error {p : Provider} {e : FetchError}
    (failed : (c.run (getSnapshot p)).1 = .error e) :
    (c.run (getSnapshot p)).2.status = .failed ∧
      (c.run (getSnapshot p)).2.snapshot.value? = none := by
  by_cases held : ∃ s, c.snapshot = .value s
  · obtain ⟨s, held⟩ := held
    rw [run_getSnapshot_of_held held] at failed
    cases failed
  · rw [run_getSnapshot_of_missing (not_exists.mp held)] at failed ⊢
    rw [status, failed]
    exact ⟨rfl, rfl⟩

namespace History

def troubled (m : MemoryProvider) (calls : List (SortedMap String × Call)) :
    List (Provider × Call) :=
  calls.map fun (broken, call) => ((m.breaking broken).provider, call)

theorem agrees_after {h : History} (agrees : Agrees m.whole repo scope h.cache)
    (calls : List (SortedMap String × Call)) :
    Agrees m.whole repo scope (h.after (troubled m calls)).cache := by
  induction calls generalizing h with
  | nil => exact agrees
  | cons call rest ih =>
    apply ih
    exact agrees.perform (m.impairs_whole call.1) call.2

/-- What was fetched is held and not asked for again, a snapshot that fails leaves none, and none
of the failures shows in the snapshot once nothing is broken. -/
structure Recovers (m : MemoryProvider) (repo : Repository) (scope : Scope) (h : History) :
    Prop where
  failed : ∀ broken e, (h.cache.run (getSnapshot (m.breaking broken).provider)).1 = .error e →
    (h.cache.run (getSnapshot (m.breaking broken).provider)).2.status = .failed ∧
      (h.cache.run (getSnapshot (m.breaking broken).provider)).2.snapshot.value? = none
  commit : ∀ commit, .head (.ok commit) ∈ h.exchanges → h.cache.At commit
  files : ∀ path content, (path, content) ∈ h.fetched → h.cache.HasFile path content
  once : h.exchanges.Pairwise fun later earlier => ¬earlier.Settles later.request
  fresh : (h.cache.run (getSnapshot m.whole)).1 =
    ((initial repo scope).cache.run (getSnapshot m.whole)).1
  read : (h.cache.run (getSnapshot m.whole)).1 = m.whole.snapshotOf repo scope

theorem after_recovers (m : MemoryProvider) (repo : Repository) (scope : Scope)
    (calls : List (SortedMap String × Call)) :
    Recovers m repo scope ((initial repo scope).after (troubled m calls)) := by
  have sound := (sound_initial repo scope).after (troubled m calls)
  have start : Agrees m.whole repo scope (initial repo scope).cache := agrees_fresh _ _ _
  have agrees := agrees_after start calls
  constructor
  · intro broken e failed
    exact failed_of_error failed
  · intro commit member
    exact (sound.accounts.commit commit).mpr member
  · intro path content member
    exact (sound.accounts.files path content).mpr member
  · exact sound.accounts.once
  · exact agrees.run_getSnapshot.trans start.run_getSnapshot.symm
  · exact agrees.run_getSnapshot

def flakyProvider : MemoryProvider where
  commit := "c1"
  files := .ofList [("s/a", "1"), ("s/b/c", "2")]

def flakyCalls : List (SortedMap String × Call) :=
  [(.ofList [("head", "offline")], .snapshot), (.ofList [("dir:s/b", "offline")], .snapshot),
    (.ofList [("file:s/b/c", "offline")], .snapshot), (.empty, .snapshot)]

def flakyHistory : History :=
  (initial { owner := "o", name := "r" } { roots := ["s"] }).after
    (troubled flakyProvider flakyCalls)

/-- Directories are listed again after a failure, the branch and the first file are not. -/
theorem after_recovers_flakyProvider :
    flakyHistory.cache.requests.reverse =
      [.head, .head, .list "c1" "s", .list "c1" "s/b",
        .list "c1" "s", .list "c1" "s/b", .file "c1" "s/a", .file "c1" "s/b/c",
        .list "c1" "s", .list "c1" "s/b", .file "c1" "s/b/c"] ∧
    (flakyHistory.cache.run (getSnapshot flakyProvider.whole)).1 =
      .ok (.ofFiles "o" "r" "c1" [("s/a", "1"), ("s/b/c", "2")]) ∧
    Recovers flakyProvider { owner := "o", name := "r" } { roots := ["s"] } flakyHistory := by
  have recovers := after_recovers flakyProvider { owner := "o", name := "r" } { roots := ["s"] }
    flakyCalls
  have fresh : ((initial { owner := "o", name := "r" } { roots := ["s"] }).cache.run
      (getSnapshot flakyProvider.whole)).1 =
        .ok (.ofFiles "o" "r" "c1" [("s/a", "1"), ("s/b/c", "2")]) := by
    decide +kernel
  exact ⟨by decide +kernel, recovers.fresh.trans fresh, recovers⟩

end History
end SnapshotCache
end SchemaTrace
