import SchemaTrace.Proofs.Snapshot.Tree

/-! A snapshot holds exactly its scope: the files below its roots that have one of its extensions,
and its single files, each once, with what is stored under its path. -/

namespace SchemaTrace

open List

namespace Scope

def HasExtension (path extension : String) : Prop :=
  ∃ folder name : Text, path.toList = folder ++ name ++ '.' :: extension.toList ∧
    (folder = [] ∨ folder.getLast? = some '/') ∧ '/' ∉ name ++ extension.toList ∧
      '.' ∉ extension.toList

theorem exists_folder (path : Text) : ∃ folder, path = folder ++ fileName path ∧
    (folder = [] ∨ folder.getLast? = some '/') ∧ '/' ∉ fileName path := by
  unfold fileName
  cases found : Text.splitLast? '/' path with
  | none => exact ⟨[], rfl, .inl rfl, Text.splitLast?_eq_none_iff.mp found⟩
  | some parts =>
    obtain ⟨folder, name⟩ := parts
    obtain ⟨split, absent⟩ := Text.splitLast?_eq_some_iff.mp found
    refine ⟨folder ++ ['/'], ?_, .inr getLast?_concat, absent⟩
    rw [split, append_assoc]
    rfl

theorem fileName_append {folder name : Text} (ends : folder = [] ∨ folder.getLast? = some '/')
    (bare : '/' ∉ name) : fileName (folder ++ name) = name := by
  rcases ends with rfl | slash
  · rw [nil_append, fileName, Text.splitLast?_eq_none_iff.mpr bare]
  · obtain ⟨front, rfl⟩ := getLast?_eq_some_iff.mp slash
    have split : Text.splitLast? '/' (front ++ ['/'] ++ name) = some (front, name) :=
      Text.splitLast?_eq_some_iff.mpr ⟨by rw [append_assoc]; rfl, bare⟩
    rw [fileName, split]

theorem extension?_eq_some_iff {path extension : String} :
    extension? path = some extension ↔ HasExtension path extension := by
  rw [extension?, Option.map_eq_some_iff]
  constructor
  · rintro ⟨⟨name, ending⟩, found, rfl⟩
    obtain ⟨split, absent⟩ := Text.splitLast?_eq_some_iff.mp found
    obtain ⟨folder, whole, ends, bare⟩ := exists_folder path.toList
    rw [split] at whole bare
    refine ⟨folder, name, ?_, ends, ?_, ?_⟩
    · rw [whole, String.toList_ofList, append_assoc]
    · simpa using bare
    · simpa using absent
  · rintro ⟨folder, name, split, ends, bare, absent⟩
    have inner : '/' ∉ name ++ '.' :: extension.toList := by simpa using bare
    refine ⟨(name, extension.toList), ?_, String.ofList_toList⟩
    rw [split, append_assoc, fileName_append ends inner]
    exact Text.splitLast?_eq_some_iff.mpr ⟨rfl, absent⟩

theorem keeps_iff {scope : Scope} {path : String} : scope.keeps path = true ↔
    scope.extensions = [] ∨ ∃ extension ∈ scope.extensions, HasExtension path extension := by
  rw [keeps, Bool.or_eq_true, List.isEmpty_iff, Option.any_eq_true]
  simp only [extension?_eq_some_iff, decide_eq_true_eq, and_comm]

end Scope

namespace SnapshotCache

theorem firstOccurrences_eq_eraseDups (seen paths : List String) :
    firstOccurrences seen paths = (paths.filter (· ∉ seen)).eraseDups := by
  induction paths generalizing seen with
  | nil => rfl
  | cons next rest ih =>
    rw [firstOccurrences]
    by_cases known : next ∈ seen
    · rw [if_pos known, ih, filter_cons_of_neg (by simpa using known)]
    · rw [if_neg known, ih, filter_cons_of_pos (by simpa using known), eraseDups_cons,
        filter_filter]
      simp only [mem_cons, not_or, Bool.decide_and]
      congr 2
      apply filter_congr
      intro path _
      by_cases same : path = next
      · simp [same]
      · simp [same]

/-- The paths that a scope keeps of those listed, then its single files that are not among them,
each at its first appearance. -/
theorem scopePaths_eq (scope : Scope) (listed : List String) : scopePaths scope listed =
    (listed.filter scope.keeps).eraseDups ++
      (scope.files.filter (· ∉ listed.filter scope.keeps)).eraseDups := by
  have all : (listed.filter scope.keeps ++ scope.files).filter (· ∉ []) =
      listed.filter scope.keeps ++ scope.files := filter_eq_self.mpr (by simp)
  rw [scopePaths, firstOccurrences_eq_eraseDups, all, eraseDups_append, removeAll]
  congr 2
  apply filter_congr
  intro path _
  simp only [elem_eq_mem, decide_not]

theorem run_listTree_fresh (p : Provider) (repo : Repository) (scope : Scope) (root : String) :
    (run { repo, scope } (listTree p root)).1 = p.listing repo root := by
  rcases (follows_listTree (Provider.Impairs.refl p) root _ (agrees_fresh p repo scope)).2 with
    same | impaired
  · exact same
  · exact absurd rfl impaired.1

end SnapshotCache

namespace MemoryProvider

variable {m : MemoryProvider} {repo : Repository} {scope : Scope} {s : Snapshot}

theorem whole_content_eq_ok_iff {path content : String} :
    m.whole.content repo path = .ok content ↔ m.files.get? path = some content := by
  have known : m.checkCommit m.commit = .ok () := if_pos rfl
  change m.file m.commit path = .ok content ↔ _
  rw [file, known]
  cases m.files.get? path with
  | none => simp [bind, Except.bind]
  | some held => simp [bind, Except.bind, pure, Except.pure]

theorem snapshotOf_eq_ok_iff : m.whole.snapshotOf repo scope = .ok s ↔
    ∃ listings contents,
      scope.roots.mapM (m.whole.tree m.commit (m.whole.depth + 1)) = .ok listings ∧
      (SnapshotCache.scopePaths scope listings.flatten).mapM (m.whole.content repo) = .ok contents ∧
      s = .ofContents repo.owner repo.name m.commit
        (SnapshotCache.nodup_scopePaths scope listings.flatten) contents := by
  have head : m.whole.head repo = .ok m.commit := rfl
  unfold Provider.snapshotOf
  simp only [head, Except.bind_eq_ok_iff]
  constructor
  · rintro ⟨commit, known, listings, walked, contents, read, eq⟩
    obtain rfl := Except.ok.inj known
    exact ⟨listings, contents, walked, read, (Except.ok.inj eq).symm⟩
  · rintro ⟨listings, contents, walked, read, rfl⟩
    exact ⟨_, rfl, listings, walked, contents, read, rfl⟩

end MemoryProvider

namespace SnapshotCache

structure Covers (m : MemoryProvider) (repo : Repository) (scope : Scope) (s : Snapshot) :
    Prop where
  distinct : s.paths.Nodup
  paths : ∀ path, path ∈ s.paths ↔ path ∈ scope.files ∨ (∃ root ∈ scope.roots, m.Stores root path) ∧
    (scope.extensions = [] ∨ ∃ extension ∈ scope.extensions, Scope.HasExtension path extension)
  content : ∀ path ∈ s.paths, ∃ content,
    m.files.get? path = some content ∧ s.content? path = some content
  order : ∃ listings,
    Forall₂ (fun root files => (run { repo, scope } (listTree m.whole root)).1 = .ok files)
      scope.roots listings ∧
    s.paths = (listings.flatten.filter scope.keeps).eraseDups ++
      (scope.files.filter (· ∉ listings.flatten.filter scope.keeps)).eraseDups

section

variable {m : MemoryProvider} {repo : Repository} {scope : Scope} {listings : List (List String)}

theorem mem_listings_iff (walkable : ∀ root ∈ scope.roots, m.Walkable root)
    (walked : scope.roots.mapM (m.whole.tree m.commit (m.whole.depth + 1)) = .ok listings)
    {path : String} : path ∈ listings.flatten ↔ ∃ root ∈ scope.roots, m.Stores root path := by
  have each := (forall₂_and_left _ _).mpr ⟨walkable, Except.mapM_eq_ok_iff.mp walked⟩
  exact MemoryProvider.mem_flatten_iff
    (each.imp fun root files given => MemoryProvider.mem_iff_of_tree_eq_ok given.1 given.2)

theorem mem_scopePaths_iff (walkable : ∀ root ∈ scope.roots, m.Walkable root)
    (walked : scope.roots.mapM (m.whole.tree m.commit (m.whole.depth + 1)) = .ok listings)
    {path : String} : path ∈ scopePaths scope listings.flatten ↔
      path ∈ scope.files ∨ (∃ root ∈ scope.roots, m.Stores root path) ∧
        (scope.extensions = [] ∨
          ∃ extension ∈ scope.extensions, Scope.HasExtension path extension) := by
  rw [scopePaths, mem_firstOccurrences, mem_append, mem_filter, mem_listings_iff walkable walked,
    Scope.keeps_iff, or_comm]
  simp only [not_mem_nil, not_false_eq_true, and_true]

theorem exists_lookup_zip {R : String → String → Prop} {paths contents : List String}
    {path : String} (read : Forall₂ R paths contents) (member : path ∈ paths) :
    ∃ content, R path content ∧ (paths.zip contents).lookup path = some content := by
  induction read with
  | nil => cases member
  | @cons first text paths contents related rest ih =>
    rw [zip_cons_cons, SortedMap.lookup_cons_eq_ite]
    by_cases same : path = first
    · exact ⟨text, same ▸ related, if_pos same⟩
    · rw [if_neg same]
      exact ih ((mem_cons.mp member).resolve_left same)

theorem exists_getSnapshot_iff (walkable : ∀ root ∈ scope.roots, m.Walkable root) :
    (∃ s, m.whole.snapshotOf repo scope = .ok s) ↔
      (∀ root ∈ scope.roots, root ≠ "" → ∃ path, m.Stores root path) ∧
        ∀ path ∈ scope.files, path ∈ m.files.keys := by
  simp only [MemoryProvider.snapshotOf_eq_ok_iff]
  constructor
  · rintro ⟨s, listings, contents, walked, read, -⟩
    constructor
    · intro root member named
      obtain ⟨files, found⟩ := Except.exists_of_mapM_eq_ok walked root member
      exact MemoryProvider.stores_of_tree_eq_ok found named
    · intro path member
      have inside := (mem_scopePaths_iff walkable walked).mpr (.inl member)
      obtain ⟨content, found⟩ := Except.exists_of_mapM_eq_ok read path inside
      exact SortedMap.mem_keys_iff.mpr ⟨content, MemoryProvider.whole_content_eq_ok_iff.mp found⟩
  · rintro ⟨present, stored⟩
    obtain ⟨listings, walked, -⟩ := Except.exists_mapM_eq_ok fun root member =>
      MemoryProvider.exists_tree_root (walkable root member) (present root member)
    have readable : ∀ path ∈ scopePaths scope listings.flatten, ∃ content,
        m.whole.content repo path = .ok content ∧ m.files.get? path = some content := by
      intro path member
      have known : path ∈ m.files.keys := by
        rcases (mem_scopePaths_iff walkable walked).mp member with single | ⟨⟨root, -, below⟩, -⟩
        · exact stored path single
        · exact below.1
      obtain ⟨content, held⟩ := SortedMap.mem_keys_iff.mp known
      exact ⟨content, MemoryProvider.whole_content_eq_ok_iff.mpr held, held⟩
    obtain ⟨contents, read, -⟩ := Except.exists_mapM_eq_ok readable
    exact ⟨_, listings, contents, walked, read, rfl⟩

theorem covers_of_eq_ok (walkable : ∀ root ∈ scope.roots, m.Walkable root) {s : Snapshot}
    (ok : m.whole.snapshotOf repo scope = .ok s) : Covers m repo scope s := by
  obtain ⟨listings, contents, walked, read, rfl⟩ := MemoryProvider.snapshotOf_eq_ok_iff.mp ok
  have found := Except.mapM_eq_ok_iff.mp read
  have paths := Snapshot.paths_ofContents repo.owner repo.name m.commit
    (nodup_scopePaths scope listings.flatten) (Nat.le_of_eq found.length_eq)
  constructor
  · exact Snapshot.nodup_paths _
  · intro path
    rw [paths]
    exact mem_scopePaths_iff walkable walked
  · intro path member
    rw [paths] at member
    obtain ⟨content, said, held⟩ := exists_lookup_zip found member
    exact ⟨content, MemoryProvider.whole_content_eq_ok_iff.mp said, held⟩
  · refine ⟨listings, ?_, ?_⟩
    · refine (Except.mapM_eq_ok_iff.mp walked).imp fun root files listed => ?_
      rw [run_listTree_fresh]
      exact listed
    · rw [paths, scopePaths_eq]

end

/-- On a fresh cache a scope has a snapshot exactly if every root but that of all holds a file and
every single file is stored, and the snapshot is what the scope covers. -/
theorem getSnapshot_exact (m : MemoryProvider) (repo : Repository) {scope : Scope}
    (walkable : "" ∈ scope.roots → ∀ path ∈ m.files.keys, ¬['/'] <+: path.toList) :
    ((∃ s, (run { repo, scope } (getSnapshot m.whole)).1 = .ok s) ↔
      (∀ root ∈ scope.roots, root ≠ "" → ∃ path, m.Stores root path) ∧
        ∀ path ∈ scope.files, path ∈ m.files.keys) ∧
    ∀ s, (run { repo, scope } (getSnapshot m.whole)).1 = .ok s → Covers m repo scope s := by
  have whole := (agrees_fresh m.whole repo scope).run_getSnapshot
  have each : ∀ root ∈ scope.roots, m.Walkable root := by
    rintro root member rfl
    exact walkable member
  rw [whole]
  exact ⟨exists_getSnapshot_iff each, fun s => covers_of_eq_ok each⟩

def nestedFiles : MemoryProvider where
  commit := "c1"
  files := .ofList [("a.md", "0"), ("s/a.rs", "1"), ("s/b/c.rs", "2"), ("s/n.txt", "3")]

/-- Roots within each other, and single files of which a root has one. -/
def overlapping : Scope where
  roots := ["s/b", "s", ""]
  files := ["s/n.txt", "s/a.rs", "s/n.txt"]
  extensions := ["rs"]

theorem getSnapshot_exact_overlapping :
    (run { repo := { owner := "o", name := "r" }, scope := overlapping }
      (getSnapshot nestedFiles.whole)).1 =
        .ok (.ofFiles "o" "r" "c1" [("s/b/c.rs", "2"), ("s/a.rs", "1"), ("s/n.txt", "3")]) ∧
      Covers nestedFiles { owner := "o", name := "r" } overlapping
        (.ofFiles "o" "r" "c1" [("s/b/c.rs", "2"), ("s/a.rs", "1"), ("s/n.txt", "3")]) := by
  have taken : (run { repo := { owner := "o", name := "r" }, scope := overlapping }
      (getSnapshot nestedFiles.whole)).1 =
        .ok (.ofFiles "o" "r" "c1" [("s/b/c.rs", "2"), ("s/a.rs", "1"), ("s/n.txt", "3")]) := by
    decide +kernel
  have walkable : "" ∈ overlapping.roots →
      ∀ path ∈ nestedFiles.files.keys, ¬['/'] <+: path.toList := fun _ => by decide
  have exact := getSnapshot_exact nestedFiles { owner := "o", name := "r" } walkable
  exact ⟨taken, exact.2 _ taken⟩

end SnapshotCache
end SchemaTrace
