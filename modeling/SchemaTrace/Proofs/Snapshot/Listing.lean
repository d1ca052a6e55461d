import SchemaTrace.Proofs.Snapshot.Tree

/-! Listing a subtree. The walk below a root asks for each directory once, meets no failure on the
way down and finds each stored path once; only a root that holds nothing fails. -/

namespace SchemaTrace

open List

namespace MemoryProvider

variable {m : MemoryProvider} {directory path : String}

def subdirectories (m : MemoryProvider) (directory : String) : List String :=
  (m.entries directory).filterMap Entry.directoryPath?

def ownFiles (m : MemoryProvider) (directory : String) : List String :=
  (m.entries directory).filterMap Entry.filePath?

/-- What belongs to a directory and to the directories below it, in the order in which they are
listed. -/
def collect (m : MemoryProvider) (own : String → List String) : (levels : Nat) →
    (directory : String) → List String
  | 0, _ => []
  | levels + 1, directory =>
    own directory ++ (m.subdirectories directory).flatMap (m.collect own levels)

/-! ### One directory -/

theorem nodup_entriesFrom {paths : List String} (distinct : paths.Nodup) (seen : List String) :
    (entriesFrom directory seen paths).Nodup := by
  fun_induction entriesFrom directory seen paths with
  | case1 seen => exact nodup_nil
  | case2 seen path paths outside ih => exact ih distinct.of_cons
  | case3 seen path paths rest found inner ih =>
    refine nodup_cons.mpr ⟨?_, ih distinct.of_cons⟩
    intro again
    obtain ⟨⟨other, later, made⟩, -⟩ := mem_entriesFrom_iff.mp again
    obtain ⟨rfl, -⟩ := entryOf?_eq_file_iff.mp made
    exact (nodup_cons.mp distinct).1 later
  | case4 seen path paths rest found child behind inner child' known ih => exact ih distinct.of_cons
  | case5 seen path paths rest found child behind inner child' fresh ih =>
    refine nodup_cons.mpr ⟨?_, ih distinct.of_cons⟩
    intro again
    exact (mem_entriesFrom_iff.mp again).2 child' mem_cons_self rfl

theorem nodup_subdirectories (m : MemoryProvider) (directory : String) :
    (m.subdirectories directory).Nodup := by
  refine (nodup_entriesFrom (SortedMap.nodup_keys m.files) []).filterMap ?_
  intro first second inner one two
  rw [Entry.directoryPath?_eq_some_iff.mp one, Entry.directoryPath?_eq_some_iff.mp two]

theorem nodup_ownFiles (m : MemoryProvider) (directory : String) :
    (m.ownFiles directory).Nodup := by
  refine (nodup_entriesFrom (SortedMap.nodup_keys m.files) []).filterMap ?_
  intro first second path one two
  rw [Entry.filePath?_eq_some_iff.mp one, Entry.filePath?_eq_some_iff.mp two]

theorem exists_front_eq (walkable : m.Walkable directory) {inner : String}
    (entry : .directory inner ∈ m.entries directory) :
    ∃ child, '/' ∉ child ∧ inner.toList = front directory ++ child ∧
      front inner = front directory ++ child ++ ['/'] := by
  obtain ⟨path, member, made⟩ := mem_entries_iff.mp entry
  obtain ⟨child, rfl, bare, starts⟩ := entryOf?_eq_directory_iff.mp made
  exact ⟨child.toList, bare, toList_joinPath directory child,
    front_joinPath (joinPath_ne_empty walkable member starts)⟩

theorem eq_of_below_both (walkable : m.Walkable directory) {first second : String} {t : Text}
    (one : .directory first ∈ m.entries directory) (two : .directory second ∈ m.entries directory)
    (inFirst : front first <+: t) (inSecond : front second <+: t) : first = second := by
  obtain ⟨child, bare, path, whole⟩ := exists_front_eq walkable one
  obtain ⟨child', bare', path', whole'⟩ := exists_front_eq walkable two
  obtain ⟨rest, rfl⟩ := inFirst
  obtain ⟨rest', same⟩ := inSecond
  rw [whole, whole'] at same
  simp only [append_assoc, singleton_append] at same
  have split : Text.splitFirst? '/' (child ++ '/' :: rest) = some (child, rest) :=
    Text.splitFirst?_eq_some_iff.mpr ⟨rfl, bare⟩
  have split' : Text.splitFirst? '/' (child ++ '/' :: rest) = some (child', rest') :=
    Text.splitFirst?_eq_some_iff.mpr ⟨(append_cancel_left same).symm, bare'⟩
  obtain rfl : child = child' := congrArg Prod.fst (Option.some.inj (split.symm.trans split'))
  rw [← String.toList_inj, path, path']

/-! ### A walk -/

/-- What belongs to a directory has its place below it and below none of its subdirectories. -/
structure IsOwn (m : MemoryProvider) (place : String → Text) (own : String → List String) :
    Prop where
  distinct : ∀ directory, (own directory).Nodup
  below : ∀ directory, ∀ name ∈ own directory, front directory <+: place name
  apart : ∀ directory, m.Walkable directory → ∀ name ∈ own directory,
    ∀ inner, .directory inner ∈ m.entries directory → ¬front inner <+: place name

theorem isOwn_ownFiles (m : MemoryProvider) : m.IsOwn String.toList m.ownFiles where
  distinct := nodup_ownFiles m
  below directory path own := by
    obtain ⟨other, -, made⟩ := mem_entries_iff.mp (file_mem_filterMap_iff.mp own)
    obtain ⟨rfl, name, split, -⟩ := entryOf?_eq_file_iff.mp made
    exact ⟨name, split.symm⟩
  apart directory walkable path own inner entry within := by
    obtain ⟨other, -, made⟩ := mem_entries_iff.mp (file_mem_filterMap_iff.mp own)
    obtain ⟨rfl, name, split, bare⟩ := entryOf?_eq_file_iff.mp made
    obtain ⟨child, -, -, whole⟩ := exists_front_eq walkable entry
    rw [whole, split, append_assoc, prefix_append_right_inj] at within
    exact bare (within.subset (mem_append_right child (mem_singleton.mpr rfl)))

theorem isOwn_singleton (m : MemoryProvider) : m.IsOwn front fun directory => [directory] where
  distinct := nodup_singleton
  below directory name own := by
    rw [mem_singleton.mp own]
  apart directory walkable name own inner entry within := by
    obtain ⟨child, -, -, whole⟩ := exists_front_eq walkable entry
    rw [mem_singleton.mp own, whole] at within
    have shorter := within.length_le
    simp only [length_append, length_singleton] at shorter
    omega

theorem Walkable.of_mem_subdirectories (walkable : m.Walkable directory) {inner : String}
    (listed : inner ∈ m.subdirectories directory) : m.Walkable inner := by
  rintro rfl
  have longer := (liesIn_of_mem_entries walkable (directory_mem_filterMap_iff.mp listed)).longer
  exact absurd longer (Nat.not_lt_zero _)

variable {place : String → Text} {own : String → List String}

theorem IsOwn.below_of_mem_collect (isOwn : m.IsOwn place own) {levels : Nat} {name : String}
    (walkable : m.Walkable directory) (found : name ∈ m.collect own levels directory) :
    front directory <+: place name := by
  induction levels generalizing directory with
  | zero => cases found
  | succ levels ih =>
    rcases mem_append.mp found with here | further
    · exact isOwn.below directory name here
    · obtain ⟨inner, listed, inside⟩ := mem_flatMap.mp further
      have lies := liesIn_of_mem_entries walkable (directory_mem_filterMap_iff.mp listed)
      exact lies.below.trans (ih (walkable.of_mem_subdirectories listed) inside)

theorem IsOwn.nodup_collect (isOwn : m.IsOwn place own) (levels : Nat)
    (walkable : m.Walkable directory) : (m.collect own levels directory).Nodup := by
  induction levels generalizing directory with
  | zero => exact nodup_nil
  | succ levels ih =>
    have within {inner name : String} (listed : inner ∈ m.subdirectories directory)
        (inside : name ∈ m.collect own levels inner) : front inner <+: place name :=
      isOwn.below_of_mem_collect (walkable.of_mem_subdirectories listed) inside
    -- What belongs below different subdirectories differs in how its place begins.
    have further : ((m.subdirectories directory).flatMap (m.collect own levels)).Nodup := by
      refine nodup_flatMap.mpr ⟨fun inner listed => ih (walkable.of_mem_subdirectories listed), ?_⟩
      refine (nodup_subdirectories m directory).imp_of_mem ?_
      intro first second one two differ name inFirst inSecond
      exact differ (eq_of_below_both walkable (directory_mem_filterMap_iff.mp one)
        (directory_mem_filterMap_iff.mp two) (within one inFirst) (within two inSecond))
    refine nodup_append'.mpr ⟨isOwn.distinct directory, further, ?_⟩
    intro name here later
    obtain ⟨inner, listed, inside⟩ := mem_flatMap.mp later
    exact isOwn.apart directory walkable name here inner (directory_mem_filterMap_iff.mp listed)
      (within listed inside)

end MemoryProvider

/-- A walk that comes to an end on few levels comes to the same end on more. -/
theorem Provider.tree_eq_ok_of_le {p : Provider} {commit path : String} {files : List String}
    {levels more : Nat} (walked : p.tree commit levels path = .ok files) (le : levels ≤ more) :
    p.tree commit more path = .ok files := by
  induction more generalizing levels path files with
  | zero =>
    obtain rfl := Nat.le_zero.mp le
    cases walked
  | succ more ih =>
    cases levels with
    | zero => cases walked
    | succ levels =>
      obtain ⟨entries, listed, others⟩ := Except.bind_eq_ok_iff.mp walked
      obtain ⟨nested, inside, last⟩ := Except.bind_eq_ok_iff.mp others
      have again : (entries.filterMap Entry.directoryPath?).mapM (p.tree commit more) =
          .ok nested :=
        Except.mapM_eq_ok_iff.mpr ((Except.mapM_eq_ok_iff.mp inside).imp
          fun inner files found => ih found (Nat.le_of_succ_le_succ le))
      rw [tree, Except.bind_eq_ok_iff]
      exact ⟨entries, listed, Except.bind_eq_ok_iff.mpr ⟨nested, again, last⟩⟩

namespace SnapshotCache

/-! ### What a walk asks for -/

section Asks

variable {α β : Type}

/-- Whatever a cache holds, a step has an outcome and asks for some things, the first one first; it
changes nothing else. -/
def Asks (step : Fetching α) (outcome : Outcome α) (asked : List Request) : Prop :=
  ∀ c : SnapshotCache, c.run step = (outcome, { c with requests := asked.reverse ++ c.requests })

variable {step : Fetching α} {next : α → Fetching β} {asked more : List Request}

theorem Asks.pure (a : α) : Asks (Pure.pure a) (.ok a) [] := fun _ => rfl

theorem asks_ask (request : Request) (answer : Outcome α) :
    Asks (ask request answer) answer [request] := fun c => run_ask c request answer

theorem Asks.bind {a : α} {outcome : Outcome β} (first : Asks step (.ok a) asked)
    (second : Asks (next a) outcome more) : Asks (step >>= next) outcome (asked ++ more) := by
  intro c
  rw [run_bind, first c, reverse_append, append_assoc]
  exact second _

theorem Asks.bind_error {e : FetchError} (first : Asks step (.error e) asked) :
    Asks (step >>= next) (.error e) asked := by
  intro c
  rw [run_bind, first c]

theorem Asks.mapM {step : β → Fetching α} {result : β → α} {asked : β → List Request}
    {items : List β} (each : ∀ b ∈ items, Asks (step b) (.ok (result b)) (asked b)) :
    Asks (items.mapM step) (.ok (items.map result)) (items.flatMap asked) := by
  induction items with
  | nil => exact .pure []
  | cons b rest ih =>
    obtain ⟨first, others⟩ := forall_mem_cons.mp each
    rw [mapM_cons, flatMap_cons]
    apply first.bind
    rw [← append_nil (rest.flatMap asked)]
    exact (ih others).bind (.pure _)

end Asks

end SnapshotCache

namespace MemoryProvider

variable {m : MemoryProvider} {directory : String}

open SnapshotCache

def directories (m : MemoryProvider) : (levels : Nat) → (directory : String) → List String :=
  m.collect fun directory => [directory]

theorem asks_listFrom {levels : Nat} {files : List String}
    (walked : m.whole.tree m.commit levels directory = .ok files) :
    Asks (listFrom m.whole m.commit levels directory) (.ok (m.collect m.ownFiles levels directory))
      ((m.directories levels directory).map (.list m.commit)) := by
  induction levels generalizing directory files with
  | zero => cases walked
  | succ levels ih =>
    obtain ⟨entries, listed, others⟩ := Except.bind_eq_ok_iff.mp walked
    obtain ⟨nested, inside, last⟩ := Except.bind_eq_ok_iff.mp others
    have same : entries = m.entries directory := by
      rw [whole_list] at listed
      split at listed
      · cases listed
      · exact (Except.ok.inj listed).symm
    subst same
    have each : ∀ inner ∈ m.subdirectories directory,
        Asks (listFrom m.whole m.commit levels inner) (.ok (m.collect m.ownFiles levels inner))
          ((m.directories levels inner).map (.list m.commit)) := by
      intro inner member
      obtain ⟨files, found⟩ := Except.exists_of_mapM_eq_ok inside inner member
      exact ih found
    have asks : Asks (listFrom m.whole m.commit (levels + 1) directory)
        (.ok (m.ownFiles directory ++
          ((m.subdirectories directory).map (m.collect m.ownFiles levels)).flatten))
        ([.list m.commit directory] ++ ((m.subdirectories directory).flatMap (fun inner =>
          (m.directories levels inner).map (.list m.commit)) ++ [])) := by
      unfold listFrom
      rw [listed]
      refine Asks.bind (asks_ask _ _) ?_
      refine Asks.bind (Asks.mapM each) ?_
      exact Asks.pure _
    rw [append_nil, ← map_flatMap, ← map_singleton, ← map_append] at asks
    exact asks

theorem eq_collect_of_tree_eq_ok {levels : Nat} {files : List String}
    (walked : m.whole.tree m.commit levels directory = .ok files) :
    files = m.collect m.ownFiles levels directory := by
  have fresh := agrees_fresh m.whole { owner := "", name := "" } {}
  have run := asks_listFrom walked { repo := { owner := "", name := "" }, scope := {} }
  rcases (follows_listFrom (.refl m.whole) m.commit levels directory _ fresh).2 with same | impaired
  · rw [run, walked] at same
    exact (Except.ok.inj same).symm
  · exact absurd rfl impaired.1

theorem exists_stores_of_mem_directories {levels : Nat} {inner : String}
    (walkable : m.Walkable directory) (listed : inner ∈ m.directories levels directory)
    (deeper : inner ≠ directory) : ∃ path, m.Stores inner path := by
  induction levels generalizing directory with
  | zero => cases listed
  | succ levels ih =>
    rcases mem_append.mp listed with here | further
    · exact absurd (mem_singleton.mp here) deeper
    · obtain ⟨child, member, inside⟩ := mem_flatMap.mp further
      by_cases same : inner = child
      · subst same
        exact (liesIn_of_mem_entries walkable (directory_mem_filterMap_iff.mp member)).stored
      · exact ih (walkable.of_mem_subdirectories member) inside same

structure Enumerates (m : MemoryProvider) (root : String) (outcome : Outcome (List String))
    (listed : List String) : Prop where
  /-- Each path below the root is there once. -/
  found : root = "" ∨ (∃ path, m.Stores root path) → ∃ files, outcome = .ok files ∧ files.Nodup ∧
    files ~ m.files.keys.filter fun path => front root <+: path.toList
  bare : root = "" → m.files.keys = [] → outcome = .ok []
  absent : root ≠ "" → (∀ path, ¬m.Stores root path) →
    outcome = .error ⟨s!"directory {root}", "no such directory"⟩
  once : listed.Nodup
  nested : ∀ directory ∈ listed, directory ≠ root →
    ∃ entries, m.whole.list m.commit directory = .ok entries ∧ entries ≠ []
  /-- The walk ends by itself: no bound on its levels beyond the longest path changes it. -/
  settled : ∀ levels, m.whole.depth < levels → ∀ c : SnapshotCache,
    (c.run (listFrom m.whole m.commit levels root)).1 = outcome

variable {root : String}

theorem enumerates_of_tree_eq_ok {files : List String} (walkable : m.Walkable root)
    (walked : m.whole.tree m.commit (m.whole.depth + 1) root = .ok files) :
    m.Enumerates root (.ok files) (m.directories (m.whole.depth + 1) root) := by
  have member := mem_iff_of_tree_eq_ok walkable walked
  constructor
  case found =>
    intro _
    have distinct : files.Nodup := by
      rw [eq_collect_of_tree_eq_ok walked]
      exact (isOwn_ownFiles m).nodup_collect _ walkable
    refine ⟨files, rfl, distinct, ?_⟩
    rw [perm_ext_iff_of_nodup distinct ((SortedMap.nodup_keys m.files).filter _)]
    intro path
    rw [member, mem_filter, decide_eq_true_iff, Stores]
  case bare =>
    intro _ empty
    have none : files = [] := by
      rw [eq_nil_iff_forall_not_mem]
      intro path inside
      have stored := ((member path).mp inside).1
      rw [empty] at stored
      cases stored
    rw [none]
  case absent =>
    intro named none
    obtain ⟨path, stored⟩ := stores_of_tree_eq_ok walked named
    exact absurd stored (none path)
  case once => exact (isOwn_singleton m).nodup_collect _ walkable
  case nested =>
    intro directory listed deeper
    obtain ⟨path, stored⟩ := exists_stores_of_mem_directories walkable listed deeper
    exact ⟨_, whole_list_of_stores stored⟩
  case settled =>
    intro levels enough c
    have again := Provider.tree_eq_ok_of_le walked enough
    rw [asks_listFrom again c, ← eq_collect_of_tree_eq_ok again]

theorem asks_listFrom_of_error {e : FetchError} (levels : Nat)
    (failed : m.whole.list m.commit root = .error e) :
    Asks (listFrom m.whole m.commit (levels + 1) root) (.error e) [.list m.commit root] := by
  unfold listFrom
  rw [failed]
  exact Asks.bind_error (asks_ask _ _)

theorem enumerates_of_not_stores (named : root ≠ "") (none : ∀ path, ¬m.Stores root path) :
    m.Enumerates root (.error ⟨s!"directory {root}", "no such directory"⟩) [root] := by
  constructor
  case found =>
    rintro (root | ⟨path, stored⟩)
    · exact absurd root named
    · exact absurd stored (none path)
  case bare => exact fun root => absurd root named
  case absent => exact fun _ _ => rfl
  case once => exact nodup_singleton root
  case nested => exact fun directory listed deeper => absurd (mem_singleton.mp listed) deeper
  case settled =>
    intro levels enough c
    obtain ⟨levels, rfl⟩ := Nat.exists_eq_succ_of_ne_zero (Nat.ne_of_gt (Nat.zero_lt_of_lt enough))
    rw [asks_listFrom_of_error levels (whole_list_of_not_stores named none) c]

end MemoryProvider

namespace SnapshotCache

open MemoryProvider

variable {m : MemoryProvider} {root : String} {c : SnapshotCache}

theorem run_listTree (pinned : ∀ commit, c.At commit → commit = m.commit) :
    c.run (listTree m.whole root) =
      (c.run (resolveCommit m.whole)).2.run
        (listFrom m.whole m.commit (m.whole.depth + 1) root) := by
  have resolved : (c.run (resolveCommit m.whole)).1 = .ok m.commit := by
    by_cases held : ∃ commit, c.At commit
    · obtain ⟨commit, held⟩ := held
      rw [run_resolveCommit_of_held held, pinned commit held]
    · rw [run_resolveCommit_of_missing (not_exists.mp held)]
      rfl
  unfold listTree
  rw [run_bind]
  rcases result : c.run (resolveCommit m.whole) with ⟨outcome, c'⟩
  rw [result] at resolved
  obtain rfl : outcome = .ok m.commit := resolved
  rfl

/-- At whatever moment a root is listed, the files below it are found, each of them once, by asking
for each directory once; a root below which nothing is stored fails, unless it is that of all. The
paths may have empty names in them, but at the root of all none begins with one. -/
theorem listTree_exact (walkable : root = "" → ∀ path ∈ m.files.keys, ¬['/'] <+: path.toList)
    (pinned : ∀ commit, c.At commit → commit = m.commit) :
    ∃ listed, (c.run (listTree m.whole root)).2.requests =
        (listed.map (.list m.commit)).reverse ++ (c.run (resolveCommit m.whole)).2.requests ∧
      m.Enumerates root (c.run (listTree m.whole root)).1 listed := by
  rw [run_listTree pinned]
  by_cases present : root ≠ "" → ∃ path, m.Stores root path
  · obtain ⟨files, walked, -⟩ := exists_tree_root walkable present
    refine ⟨m.directories (m.whole.depth + 1) root, ?_, ?_⟩
    · rw [asks_listFrom walked]
    · rw [asks_listFrom walked, ← eq_collect_of_tree_eq_ok walked]
      exact enumerates_of_tree_eq_ok walkable walked
  · obtain ⟨named, missing⟩ := Classical.not_imp.mp present
    have none := not_exists.mp missing
    have asks := asks_listFrom_of_error m.whole.depth (whole_list_of_not_stores named none)
    refine ⟨[root], ?_, ?_⟩
    · rw [asks]
      rfl
    · rw [asks]
      exact enumerates_of_not_stores named none

/-- Paths with empty names, and a file that has the name of a directory. -/
def emptyNames : MemoryProvider where
  commit := "c1"
  files := .ofList [("s", "0"), ("s/a", "1"), ("s/a/", "2"), ("s/a//b", "3"), ("s//c", "4")]

theorem listTree_exact_emptyNames :
    ("" = "" → ∀ path ∈ emptyNames.files.keys, ¬['/'] <+: path.toList) ∧
    ∃ listed, (run { repo := { owner := "o", name := "r" }, scope := {} }
        (listTree emptyNames.whole "")).2.requests =
          (listed.map (.list "c1")).reverse ++ [.head] ∧
      emptyNames.Enumerates "" (.ok ["s", "s/a", "s//c", "s/a/", "s/a//b"]) listed := by
  have walkable : "" = "" → ∀ path ∈ emptyNames.files.keys, ¬['/'] <+: path.toList :=
    fun _ => by decide
  have fresh : ∀ commit, At commit { repo := { owner := "o", name := "r" }, scope := {} } →
      commit = emptyNames.commit := nofun
  have files : (run { repo := { owner := "o", name := "r" }, scope := {} }
      (listTree emptyNames.whole "")).1 = .ok ["s", "s/a", "s//c", "s/a/", "s/a//b"] := by
    decide +kernel
  obtain ⟨listed, asked, enumerates⟩ := listTree_exact walkable fresh
  rw [files] at enumerates
  exact ⟨walkable, listed, asked, enumerates⟩

end SnapshotCache

end SchemaTrace
