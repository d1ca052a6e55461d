import Mathlib.Data.List.Forall2
import SchemaTrace.Proofs.Except
import SchemaTrace.Proofs.Snapshot.Recovery
import SchemaTrace.Proofs.Text.Pieces

/-! The files below a directory of a provider in memory. Walking the directories that the stored
paths make up gives exactly the stored paths that stand below. -/

namespace SchemaTrace

namespace Entry

variable {path : String} {entry : Entry}

theorem filePath?_eq_some_iff :
    entry.filePath? = some path ↔ entry = .file path := by
  cases entry with
  | file other => exact ⟨fun same => congrArg _ (Option.some.inj same), fun same => same ▸ rfl⟩
  | directory other => exact iff_of_false nofun nofun

theorem directoryPath?_eq_some_iff :
    entry.directoryPath? = some path ↔ entry = .directory path := by
  cases entry with
  | file other => exact iff_of_false nofun nofun
  | directory other => exact ⟨fun same => congrArg _ (Option.some.inj same), fun same => same ▸ rfl⟩

end Entry

namespace MemoryProvider

open List

/-- What the paths below a directory begin with. -/
def front (directory : String) : Text :=
  if directory = "" then [] else directory.toList ++ ['/']

/-- A stored path stands below a directory, directly or within others. -/
def Stores (m : MemoryProvider) (directory path : String) : Prop :=
  path ∈ m.files.keys ∧ front directory <+: path.toList

/-- A directory below which no path begins with a slash, so that each step down leads further. -/
def Walkable (m : MemoryProvider) (directory : String) : Prop :=
  directory = "" → ∀ path ∈ m.files.keys, ¬['/'] <+: path.toList

variable {m : MemoryProvider} {directory path : String}

theorem below?_eq_some_iff {rest : Text} :
    below? directory path = some rest ↔ path.toList = front directory ++ rest := by
  unfold below? front
  by_cases root : directory = ""
  · simp [root]
  · rw [if_neg root, if_neg (by simpa using root), Text.after?_eq_some_iff]

theorem toList_joinPath (directory child : String) :
    (Provider.joinPath directory child).toList = front directory ++ child.toList := by
  unfold Provider.joinPath front
  by_cases root : directory = ""
  · simp [root]
  · rw [if_neg root, if_neg (by simpa using root), String.toList_append, String.toList_append]
    rfl

theorem joinPath_inj {child other : String} :
    Provider.joinPath directory child = Provider.joinPath directory other ↔ child = other := by
  rw [← String.toList_inj, toList_joinPath, toList_joinPath, List.append_cancel_left_eq,
    String.toList_inj]

/-! ### One directory -/

def entryOf? (directory path : String) : Option Entry :=
  (below? directory path).map fun rest =>
    match Text.splitFirst? '/' rest with
    | none => .file path
    | some (child, _) => .directory (Provider.joinPath directory (String.ofList child))

theorem mem_entriesFrom_iff {seen paths : List String} {entry : Entry} :
    entry ∈ entriesFrom directory seen paths ↔
      (∃ path ∈ paths, entryOf? directory path = some entry) ∧
        ∀ child ∈ seen, entry ≠ .directory (Provider.joinPath directory child) := by
  fun_induction entriesFrom directory seen paths with
  | case1 seen => simp
  | case2 seen path paths outside ih =>
    have none : entryOf? directory path = none := by rw [entryOf?, outside, Option.map_none]
    simp only [ih, List.exists_mem_cons_iff, none, reduceCtorEq, false_or]
  | case3 seen path paths rest found inner ih =>
    have own : entryOf? directory path = some (.file path) := by
      rw [entryOf?, found, Option.map_some, inner]
    rw [List.mem_cons, ih, List.exists_mem_cons_iff, own, Option.some.injEq]
    constructor
    · rintro (rfl | ⟨later, unseen⟩)
      · exact ⟨.inl rfl, by simp⟩
      · exact ⟨.inr later, unseen⟩
    · rintro ⟨rfl | later, unseen⟩
      · exact .inl rfl
      · exact .inr ⟨later, unseen⟩
  | case4 seen path paths rest found child behind inner child' known ih =>
    have own : entryOf? directory path =
        some (.directory (Provider.joinPath directory child')) := by
      rw [entryOf?, found, Option.map_some, inner]
    rw [ih, List.exists_mem_cons_iff, own, Option.some.injEq]
    constructor
    · rintro ⟨later, unseen⟩
      exact ⟨.inr later, unseen⟩
    · rintro ⟨rfl | later, unseen⟩
      · exact absurd rfl (unseen child' known)
      · exact ⟨later, unseen⟩
  | case5 seen path paths rest found child behind inner child' fresh ih =>
    have own : entryOf? directory path =
        some (.directory (Provider.joinPath directory child')) := by
      rw [entryOf?, found, Option.map_some, inner]
    rw [List.mem_cons, ih, List.exists_mem_cons_iff, own, Option.some.injEq, List.forall_mem_cons]
    constructor
    · rintro (rfl | ⟨later, -, unseen⟩)
      · refine ⟨.inl rfl, ?_⟩
        intro other known same
        exact fresh (joinPath_inj.mp (Entry.directory.inj same) ▸ known)
      · exact ⟨.inr later, unseen⟩
    · rintro ⟨rfl | later, unseen⟩
      · exact .inl rfl
      · by_cases same : entry = .directory (Provider.joinPath directory child')
        · exact .inl same
        · exact .inr ⟨later, same, unseen⟩

theorem entryOf?_eq_file_iff {other : String} : entryOf? directory other = some (.file path) ↔
    other = path ∧ ∃ name, path.toList = front directory ++ name ∧ '/' ∉ name := by
  simp only [entryOf?, Option.map_eq_some_iff, below?_eq_some_iff]
  constructor
  · rintro ⟨rest, split, made⟩
    cases inner : Text.splitFirst? '/' rest with
    | none =>
      rw [inner] at made
      obtain rfl := Entry.file.inj made
      exact ⟨rfl, rest, split, Text.splitFirst?_eq_none_iff.mp inner⟩
    | some parts =>
      rw [inner] at made
      cases made
  · rintro ⟨rfl, name, split, bare⟩
    refine ⟨name, split, ?_⟩
    rw [Text.splitFirst?_eq_none_iff.mpr bare]

theorem entryOf?_eq_directory_iff {inner : String} :
    entryOf? directory path = some (.directory inner) ↔
      ∃ child, inner = Provider.joinPath directory child ∧ '/' ∉ child.toList ∧
        front directory ++ child.toList ++ ['/'] <+: path.toList := by
  simp only [entryOf?, Option.map_eq_some_iff, below?_eq_some_iff]
  constructor
  · rintro ⟨rest, split, made⟩
    cases found : Text.splitFirst? '/' rest with
    | none =>
      rw [found] at made
      cases made
    | some parts =>
      obtain ⟨child, behind⟩ := parts
      obtain ⟨slash, bare⟩ := Text.splitFirst?_eq_some_iff.mp found
      rw [found] at made
      refine ⟨String.ofList child, (Entry.directory.inj made).symm, ?_, behind, ?_⟩
      · rwa [String.toList_ofList]
      · rw [split, slash, String.toList_ofList]
        simp only [List.append_assoc, List.singleton_append]
  · rintro ⟨child, rfl, bare, behind, split⟩
    have found : Text.splitFirst? '/' (child.toList ++ '/' :: behind) =
        some (child.toList, behind) :=
      Text.splitFirst?_eq_some_iff.mpr ⟨rfl, bare⟩
    refine ⟨child.toList ++ '/' :: behind, ?_, ?_⟩
    · rw [← split]
      simp only [List.append_assoc, List.singleton_append]
    · rw [found]
      simp only [String.ofList_toList]

theorem mem_entries_iff {entry : Entry} :
    entry ∈ m.entries directory ↔ ∃ path ∈ m.files.keys, entryOf? directory path = some entry := by
  rw [entries, mem_entriesFrom_iff]
  simp only [List.not_mem_nil, false_imp_iff, implies_true, and_true]

theorem exists_entryOf? (stored : m.Stores directory path) :
    ∃ entry ∈ m.entries directory, entryOf? directory path = some entry := by
  obtain ⟨member, rest, split⟩ := stored
  have below : below? directory path = some rest := below?_eq_some_iff.mpr split.symm
  have made : ∃ entry, entryOf? directory path = some entry := by
    rw [entryOf?, below]
    exact ⟨_, rfl⟩
  obtain ⟨entry, made⟩ := made
  exact ⟨entry, mem_entries_iff.mpr ⟨path, member, made⟩, made⟩

theorem entries_eq_nil_iff : m.entries directory = [] ↔ ∀ path, ¬m.Stores directory path := by
  constructor
  · intro none path stored
    obtain ⟨entry, held, -⟩ := exists_entryOf? stored
    rw [none] at held
    cases held
  · intro none
    rw [eq_nil_iff_forall_not_mem]
    intro entry held
    obtain ⟨path, member, made⟩ := mem_entries_iff.mp held
    obtain ⟨rest, below, -⟩ := Option.map_eq_some_iff.mp made
    exact none path ⟨member, rest, (below?_eq_some_iff.mp below).symm⟩

theorem whole_list (m : MemoryProvider) (directory : String) :
    m.whole.list m.commit directory =
      if (m.entries directory).isEmpty && !directory.isEmpty then
        .error ⟨s!"directory {directory}", "no such directory"⟩
      else .ok (m.entries directory) := by
  have known : m.checkCommit m.commit = .ok () := if_pos rfl
  change m.list m.commit directory = _
  rw [list, known]
  simp only [bind, Except.bind]
  split
  · rfl
  · rfl

theorem whole_list_of_stores (stored : m.Stores directory path) :
    m.whole.list m.commit directory = .ok (m.entries directory) ∧ m.entries directory ≠ [] := by
  have held : m.entries directory ≠ [] := fun none => entries_eq_nil_iff.mp none path stored
  rw [whole_list, isEmpty_eq_false_iff.mpr held]
  exact ⟨rfl, held⟩

theorem whole_list_of_not_stores (named : directory ≠ "")
    (none : ∀ path, ¬m.Stores directory path) : m.whole.list m.commit directory =
      .error ⟨s!"directory {directory}", "no such directory"⟩ := by
  rw [whole_list, entries_eq_nil_iff.mpr none]
  simp [named]

/-! ### All levels -/

theorem file_mem_filterMap_iff {entries : List Entry} :
    path ∈ entries.filterMap Entry.filePath? ↔ .file path ∈ entries := by
  simp only [mem_filterMap, Entry.filePath?_eq_some_iff, exists_eq_right]

theorem directory_mem_filterMap_iff {entries : List Entry} {inner : String} :
    inner ∈ entries.filterMap Entry.directoryPath? ↔ .directory inner ∈ entries := by
  simp only [mem_filterMap, Entry.directoryPath?_eq_some_iff, exists_eq_right]

theorem length_le_front (directory : String) : directory.length ≤ (front directory).length := by
  unfold front
  split
  · next root => simp [root]
  · rw [length_append, String.length_toList]
    omega

theorem length_le_of_stores (stored : m.Stores directory path) :
    directory.length ≤ path.length := by
  have within := stored.2.length_le
  rw [String.length_toList] at within
  exact (length_le_front directory).trans within

theorem joinPath_ne_empty (walkable : m.Walkable directory) {child : String}
    (member : path ∈ m.files.keys)
    (starts : front directory ++ child.toList ++ ['/'] <+: path.toList) :
    Provider.joinPath directory child ≠ "" := by
  intro empty
  have none : front directory ++ child.toList = [] := by
    rw [← toList_joinPath, empty]
    rfl
  rw [none, nil_append] at starts
  have root : directory = "" := by
    have short := length_le_front directory
    rw [(append_eq_nil_iff.mp none).1, length_nil, Nat.le_zero, String.length_eq_zero_iff] at short
    exact short
  exact walkable root path member starts

theorem front_joinPath {child : String} (named : Provider.joinPath directory child ≠ "") :
    front (Provider.joinPath directory child) = front directory ++ child.toList ++ ['/'] := by
  rw [front, if_neg named, toList_joinPath]

/-- A directory within another one: below it paths are stored, and all of them are below the other,
too. -/
structure LiesIn (m : MemoryProvider) (inner directory : String) : Prop where
  longer : directory.length < inner.length
  stored : ∃ path, m.Stores inner path
  below : front directory <+: front inner

theorem liesIn_of_mem_entries (walkable : m.Walkable directory) {inner : String}
    (entry : .directory inner ∈ m.entries directory) : m.LiesIn inner directory := by
  obtain ⟨path, member, made⟩ := mem_entries_iff.mp entry
  obtain ⟨child, rfl, -, starts⟩ := entryOf?_eq_directory_iff.mp made
  have named := joinPath_ne_empty walkable member starts
  have whole := front_joinPath named
  constructor
  · have width : (Provider.joinPath directory child).length =
        (front directory).length + child.length := by
      rw [← String.length_toList, toList_joinPath, length_append, String.length_toList]
    by_cases root : directory = ""
    · have positive : (Provider.joinPath directory child).length ≠ 0 :=
        String.length_eq_zero_iff.not.mpr named
      rw [root, String.length_empty] at *
      omega
    · have slash : (front directory).length = directory.length + 1 := by
        rw [front, if_neg root, length_append, String.length_toList]
        rfl
      omega
  · exact ⟨path, member, whole ▸ starts⟩
  · rw [whole, append_assoc]
    exact prefix_append _ _

/-- What is stored below a directory is an entry of it or is stored below one of its
subdirectories. -/
theorem stores_iff (walkable : m.Walkable directory) : m.Stores directory path ↔
    .file path ∈ m.entries directory ∨
      ∃ inner, .directory inner ∈ m.entries directory ∧ m.Stores inner path := by
  constructor
  · intro stored
    obtain ⟨entry, listed, made⟩ := exists_entryOf? stored
    cases entry with
    | file other =>
      obtain ⟨rfl, -⟩ := entryOf?_eq_file_iff.mp made
      exact .inl listed
    | directory inner =>
      obtain ⟨child, rfl, -, starts⟩ := entryOf?_eq_directory_iff.mp made
      have named := joinPath_ne_empty walkable stored.1 starts
      exact .inr ⟨_, listed, stored.1, front_joinPath named ▸ starts⟩
  · rintro (listed | ⟨inner, listed, stored⟩)
    · obtain ⟨other, member, made⟩ := mem_entries_iff.mp listed
      obtain ⟨rfl, name, split, -⟩ := entryOf?_eq_file_iff.mp made
      exact ⟨member, name, split.symm⟩
    · exact ⟨stored.1, (liesIn_of_mem_entries walkable listed).below.trans stored.2⟩

theorem mem_flatten_iff {roots : List String} {listings : List (List String)}
    (listed : Forall₂ (fun root files => ∀ path, path ∈ files ↔ m.Stores root path)
      roots listings) :
    path ∈ listings.flatten ↔ ∃ root ∈ roots, m.Stores root path := by
  induction listed with
  | nil => simp
  | cons first rest ih => rw [flatten_cons, mem_append, first, ih, exists_mem_cons_iff]

theorem exists_tree {levels : Nat} (walkable : m.Walkable directory)
    (some : ∃ path, m.Stores directory path)
    (bound : ∀ path, m.Stores directory path → path.length < directory.length + levels) :
    ∃ files, m.whole.tree m.commit levels directory = .ok files ∧
      ∀ path, path ∈ files ↔ m.Stores directory path := by
  induction levels generalizing directory with
  | zero =>
    obtain ⟨path, stored⟩ := some
    have shorter := bound path stored
    have longer := length_le_of_stores stored
    omega
  | succ levels ih =>
    -- Each step down makes the directory longer, so fewer levels are enough below it.
    have each : ∀ inner ∈ (m.entries directory).filterMap Entry.directoryPath?,
        ∃ files, m.whole.tree m.commit levels inner = .ok files ∧
          ∀ path, path ∈ files ↔ m.Stores inner path := by
      intro inner member
      have entry := directory_mem_filterMap_iff.mp member
      have lies := liesIn_of_mem_entries walkable entry
      have longer := lies.longer
      have named : m.Walkable inner := by
        rintro rfl
        exact absurd longer (Nat.not_lt_zero _)
      apply ih named lies.stored
      intro path stored
      have shorter := bound path ⟨stored.1, lies.below.trans stored.2⟩
      omega
    obtain ⟨nested, walked, listed⟩ := Except.exists_mapM_eq_ok each
    obtain ⟨path, stored⟩ := some
    have entries := (whole_list_of_stores stored).1
    refine ⟨(m.entries directory).filterMap Entry.filePath? ++ nested.flatten, ?_, ?_⟩
    · rw [Provider.tree, Except.bind_eq_ok_iff]
      exact ⟨m.entries directory, entries, Except.bind_eq_ok_iff.mpr ⟨nested, walked, rfl⟩⟩
    · intro path
      rw [mem_append, file_mem_filterMap_iff, mem_flatten_iff listed, stores_iff walkable]
      simp only [directory_mem_filterMap_iff]

/-! ### From a root -/

theorem le_foldl_max {n : Nat} {list : List Nat} (start : Nat) (member : n ∈ start :: list) :
    n ≤ list.foldl max start := by
  induction list generalizing start n with
  | nil => exact Nat.le_of_eq (mem_singleton.mp member)
  | cons first rest ih =>
    rw [foldl_cons]
    rcases mem_cons.mp member with rfl | later
    · exact (Nat.le_max_left n first).trans (ih _ mem_cons_self)
    · rcases mem_cons.mp later with rfl | further
      · exact (Nat.le_max_right start n).trans (ih _ mem_cons_self)
      · exact ih _ (mem_cons_of_mem _ further)

theorem exists_tree_root {root : String} (walkable : m.Walkable root)
    (present : root ≠ "" → ∃ path, m.Stores root path) :
    ∃ files, m.whole.tree m.commit (m.whole.depth + 1) root = .ok files ∧
      ∀ path, path ∈ files ↔ m.Stores root path := by
  by_cases some : ∃ path, m.Stores root path
  · apply exists_tree walkable some
    intro path stored
    have shorter : path.length ≤ (m.files.keys.map String.length).foldl max 0 :=
      le_foldl_max 0 (mem_cons_of_mem 0 (mem_map_of_mem stored.1))
    have depth : m.whole.depth = (m.files.keys.map String.length).foldl max 0 + 2 := rfl
    omega
  · -- Only the root of all may hold nothing.
    obtain rfl : root = "" := not_not.mp (mt present some)
    have none : m.entries "" = [] := entries_eq_nil_iff.mpr (not_exists.mp some)
    refine ⟨[], ?_, fun path => iff_of_false not_mem_nil fun stored => some ⟨path, stored⟩⟩
    rw [Provider.tree, whole_list, none]
    rfl

theorem stores_of_tree_eq_ok {levels : Nat} {root : String} {files : List String}
    (walked : m.whole.tree m.commit levels root = .ok files) (named : root ≠ "") :
    ∃ path, m.Stores root path := by
  cases levels with
  | zero => cases walked
  | succ levels =>
    by_contra missing
    obtain ⟨entries, listed, -⟩ := Except.bind_eq_ok_iff.mp walked
    rw [whole_list_of_not_stores named (not_exists.mp missing)] at listed
    cases listed

theorem mem_iff_of_tree_eq_ok {root : String} {files : List String} (walkable : m.Walkable root)
    (walked : m.whole.tree m.commit (m.whole.depth + 1) root = .ok files) (path : String) :
    path ∈ files ↔ m.Stores root path := by
  obtain ⟨files', walked', listed⟩ := exists_tree_root walkable (stores_of_tree_eq_ok walked)
  obtain rfl := Except.ok.inj (walked.symm.trans walked')
  exact listed path

end MemoryProvider
end SchemaTrace
