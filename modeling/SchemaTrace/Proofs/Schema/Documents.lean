import SchemaTrace.Proofs.Schema.Arrangement
import SchemaTrace.Proofs.Schema.Merge
import SchemaTrace.Proofs.Schema.Sorted

/-! Merging several documents. It makes no difference in how many steps they are merged. Their order
decides the version and, of domains with the same name in different documents, which one stands
first; whether the result can be indexed does not depend on it. -/

namespace SchemaTrace

def arrange (domains : List Domain) : List Domain :=
  sortDomains (domains.map Domain.sortMembers)

theorem arrange_append_arrange (before domains after : List Domain) :
    arrange (before ++ arrange domains ++ after) = arrange (before ++ domains ++ after) := by
  have settled : (arrange domains).map Domain.sortMembers = arrange domains :=
    map_sortMembers_sortDomains domains
  calc arrange (before ++ arrange domains ++ after)
      = sortDomains (before.map Domain.sortMembers ++ arrange domains ++
          after.map Domain.sortMembers) := by
        rw [arrange, List.map_append, List.map_append, settled]
    _ = sortDomains (before.map Domain.sortMembers ++ domains.map Domain.sortMembers ++
          after.map Domain.sortMembers) := sortBy_append_sortBy _ _ _
    _ = arrange (before ++ domains ++ after) := by
        rw [arrange, List.map_append, List.map_append]

namespace Schema

variable {first first' : Schema} {rest rest' : List Schema}

theorem domains_merge (first : Schema) (rest : List Schema) :
    (first.merge rest).domains = arrange ((first :: rest).flatMap (·.domains)) := rfl

theorem merge_merge (first : Schema) (rest more : List Schema) :
    (first.merge rest).merge more = first.merge (rest ++ more) := by
  have domains : ((first.merge rest).merge more).domains =
      (first.merge (rest ++ more)).domains := by
    rw [domains_merge, domains_merge, List.flatMap_cons, domains_merge]
    have once := arrange_append_arrange [] ((first :: rest).flatMap (·.domains))
      (more.flatMap (·.domains))
    simpa using once
  exact congrArg (Schema.mk first.version) domains

theorem merge_inner (first : Schema) (before : List Schema) (inner : Schema)
    (rest after : List Schema) :
    first.merge (before ++ inner.merge rest :: after) =
      first.merge (before ++ (inner :: rest) ++ after) := by
  have domains : (first.merge (before ++ inner.merge rest :: after)).domains =
      (first.merge (before ++ (inner :: rest) ++ after)).domains := by
    have once := arrange_append_arrange ((first :: before).flatMap (·.domains))
      ((inner :: rest).flatMap (·.domains)) (after.flatMap (·.domains))
    simpa [domains_merge] using once
  exact congrArg (Schema.mk first.version) domains

/-- No domain of one schema has the name of a domain of the other one. -/
def Apart (a b : Schema) : Prop := ∀ d ∈ a.domains, ∀ e ∈ b.domains, d.name ≠ e.name

theorem domains_merge_of_perm (reordered : (first :: rest).Perm (first' :: rest'))
    (apart : (first :: rest).Pairwise Apart) :
    (first.merge rest).domains = (first'.merge rest').domains := by
  rw [domains_merge, domains_merge, arrange, arrange, List.map_flatMap, List.map_flatMap]
  apply sortBy_congr
  intro k
  apply ofRank_flatMap_of_perm reordered
  apply apart.imp
  intro a b differ d inside e inside' same
  obtain ⟨d, declared, rfl⟩ := List.mem_map.mp inside
  obtain ⟨e, declared', rfl⟩ := List.mem_map.mp inside'
  exact differ d declared e declared' (compareNames_eq_eq_iff.mp same)

theorem unambiguous_iff_of_perm {s t : Schema} (perm : s.domains.Perm t.domains) :
    s.Unambiguous ↔ t.Unambiguous := by
  have keys (kind : MemberKind) : (s.keys kind).Perm (t.keys kind) := perm.flatMap_right _
  constructor
  · intro unambiguous
    exact ⟨(perm.map _).nodup_iff.mp unambiguous.domains,
      fun kind => (keys kind).nodup_iff.mp (unambiguous.members kind)⟩
  · intro unambiguous
    exact ⟨(perm.map _).nodup_iff.mpr unambiguous.domains,
      fun kind => (keys kind).nodup_iff.mpr (unambiguous.members kind)⟩

theorem exists_ofSchema_merge_iff (reordered : (first :: rest).Perm (first' :: rest')) :
    (∃ model, Model.ofSchema (first.merge rest) = .ok model) ↔
      ∃ model, Model.ofSchema (first'.merge rest') = .ok model := by
  have perm : (first.joined rest).domains.Perm (first'.joined rest').domains :=
    reordered.flatMap_right fun s : Schema => s.domains
  rw [Model.exists_ofSchema_iff, Model.exists_ofSchema_iff, merge_eq_sort_joined,
    merge_eq_sort_joined, unambiguous_sort_iff, unambiguous_sort_iff,
    unambiguous_iff_of_perm perm]

/-- Merging is associative. In whichever order documents are merged, the result has a model or has
none; and if no two of them have a domain name in common, its domains are the same. The version is
that of the first document. -/
theorem merge_agrees :
    (∀ a b c : Schema, a.merge [b, c] = (a.merge [b]).merge [c] ∧
      a.merge [b, c] = a.merge [b.merge [c]]) ∧
      ∀ (first first' : Schema) (rest rest' : List Schema),
        (first :: rest).Perm (first' :: rest') →
          (first.merge rest).version = first.version ∧
          ((first :: rest).Pairwise Apart →
            (first.merge rest).domains = (first'.merge rest').domains) ∧
          ((∃ model, Model.ofSchema (first.merge rest) = .ok model) ↔
            ∃ model, Model.ofSchema (first'.merge rest') = .ok model) := by
  constructor
  · intro a b c
    exact ⟨(merge_merge a [b] [c]).symm, (merge_inner a [] b [c] []).symm⟩
  · intro first first' rest rest' reordered
    exact ⟨rfl, domains_merge_of_perm reordered, exists_ofSchema_merge_iff reordered⟩

def pagesDocument : Schema where
  version := some ⟨"1", "3"⟩
  domains := [{ name := "page", commands := some [{ name := "b" }, { name := "B" }] },
    { name := "Log" }]

/-- Its names differ from those of the other document by case only, and one of them stands twice. -/
def capitalsDocument : Schema where
  domains := [{ name := "Page" }, { name := "LOG" }, { name := "Page", events := some [] }]

theorem merge_agrees_capitals : [pagesDocument, capitalsDocument].Perm
      [capitalsDocument, pagesDocument] ∧
    [pagesDocument, capitalsDocument].Pairwise Apart ∧
    (pagesDocument.merge [capitalsDocument]).domains =
      (capitalsDocument.merge [pagesDocument]).domains ∧
    ((∃ model, Model.ofSchema (pagesDocument.merge [capitalsDocument]) = .ok model) ↔
      ∃ model, Model.ofSchema (capitalsDocument.merge [pagesDocument]) = .ok model) := by
  have reordered : [pagesDocument, capitalsDocument].Perm [capitalsDocument, pagesDocument] :=
    .swap _ _ _
  have differ : Apart pagesDocument capitalsDocument := by
    unfold Apart
    decide
  have apart : [pagesDocument, capitalsDocument].Pairwise Apart := List.pairwise_pair.mpr differ
  obtain ⟨-, domains, accepted⟩ := merge_agrees.2 _ _ _ _ reordered
  exact ⟨reordered, apart, domains apart, accepted⟩

end Schema
end SchemaTrace
