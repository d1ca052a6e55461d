import SchemaTrace.PathFilter
import SchemaTrace.Repository
import SchemaTrace.SourceFile
/-!
Snapshots: the files of part of a repository at one commit, each path once, in the order in which
they were found.
-/
namespace SchemaTrace

structure Snapshot where
  owner : String
  repo : String
  commit : String
  /-- Paths with their contents. -/
  files : List (String × String)
  distinct : (files.map Prod.fst).Nodup
  deriving DecidableEq, Repr

namespace Snapshot

/-- Enters a file; a path that is known keeps its place and takes the new content. -/
def putFile (files : List (String × String)) (path content : String) : List (String × String) :=
  match files with
  | [] => [(path, content)]
  | (p, c) :: rest => if p = path then (p, content) :: rest else (p, c) :: putFile rest path content

theorem map_fst_putFile (files : List (String × String)) (path content : String) :
    (putFile files path content).map Prod.fst =
      if path ∈ files.map Prod.fst then files.map Prod.fst else files.map Prod.fst ++ [path] := by
  induction files with
  | nil => rfl
  | cons file rest ih =>
    obtain ⟨known, old⟩ := file
    unfold putFile
    by_cases same : known = path
    · simp [same]
    · have differs : path ≠ known := Ne.symm same
      rw [if_neg same, List.map_cons, ih]
      by_cases later : path ∈ rest.map Prod.fst
      · rw [if_pos later, List.map_cons, if_pos (List.mem_cons_of_mem _ later)]
      · have unknown : path ∉ known :: rest.map Prod.fst := by
          simpa only [List.mem_cons, differs, false_or] using later
        rw [if_neg later, List.map_cons, if_neg unknown, List.cons_append]

theorem nodup_putFile {files : List (String × String)} (distinct : (files.map Prod.fst).Nodup)
    (path content : String) : ((putFile files path content).map Prod.fst).Nodup := by
  rw [map_fst_putFile]
  split
  · exact distinct
  · next unknown =>
    have single : [path].Nodup := List.nodup_cons.mpr ⟨List.not_mem_nil, .nil⟩
    refine List.nodup_append.mpr ⟨distinct, single, ?_⟩
    intro known member path' last same
    obtain rfl := List.mem_singleton.mp last
    exact unknown (same ▸ member)

def putFiles (known files : List (String × String)) : List (String × String) :=
  files.foldl (fun known (path, content) => putFile known path content) known

theorem nodup_putFiles (known files : List (String × String))
    (distinct : (known.map Prod.fst).Nodup) : ((putFiles known files).map Prod.fst).Nodup := by
  induction files generalizing known with
  | nil => exact distinct
  | cons file rest ih => exact ih _ (nodup_putFile distinct file.1 file.2)

def ofFiles (owner repo commit : String) (files : List (String × String)) : Snapshot :=
  ⟨owner, repo, commit, putFiles [] files, nodup_putFiles [] files .nil⟩

theorem nodup_map_fst_zip {paths : List String} (distinct : paths.Nodup)
    (contents : List String) : ((paths.zip contents).map Prod.fst).Nodup := by
  rw [List.zip_eq_zip_take_min, List.map_fst_zip]
  · exact distinct.sublist (List.take_sublist _ _)
  · simp only [List.length_take]
    omega

/-- The snapshot of distinct paths, each with the content that was read for it. -/
def ofContents (owner repo commit : String) {paths : List String} (distinct : paths.Nodup)
    (contents : List String) : Snapshot :=
  ⟨owner, repo, commit, paths.zip contents, nodup_map_fst_zip distinct contents⟩

def paths (s : Snapshot) : List String := s.files.map (·.1)

theorem nodup_paths (s : Snapshot) : s.paths.Nodup := s.distinct

theorem paths_ofContents (owner repo commit : String) {paths : List String}
    (distinct : paths.Nodup) {contents : List String} (all : paths.length ≤ contents.length) :
    (ofContents owner repo commit distinct contents).paths = paths :=
  List.map_fst_zip all

def content? (s : Snapshot) (path : String) : Option String := s.files.lookup path

def sourceFile (s : Snapshot) (path : String) : SourceFile := ⟨s.owner, s.repo, s.commit, path⟩

def repository (s : Snapshot) : PinnedRepository := ⟨s.owner, s.repo, s.commit⟩

def select (s : Snapshot) (test : String → Bool) : List (String × String) :=
  s.files.filter fun (path, _) => test path

end Snapshot
end SchemaTrace
