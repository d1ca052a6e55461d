import SchemaTrace.Proofs.SortedMap.Append
import SchemaTrace.Seeds

/-! Reference maps put together. Under each name the lists follow each other, so that a member has
evidence in the whole if and only if it has some in a part. How the maps are grouped makes no
difference, and the empty map adds nothing. -/

namespace SchemaTrace

namespace ReferenceMap

@[simp] theorem about_empty (kind : MemberKind) (name : String) : empty.about kind name = [] := by
  rw [about, empty, ByKind.get_fill, SortedMap.get?_empty, Option.getD_none]

theorem about_extend (ours theirs : ReferenceMap) (kind : MemberKind) (name : String) :
    (ours.extend theirs).about kind name = ours.about kind name ++ theirs.about kind name := by
  rw [about, extend, ByKind.get_fill, extendList, SortedMap.getD_foldl_append,
    SortedMap.flatMap_toList_filter]
  rfl

theorem about_foldl_extend (maps : List ReferenceMap) (found : ReferenceMap) (kind : MemberKind)
    (name : String) : (maps.foldl extend found).about kind name =
      found.about kind name ++ maps.flatMap fun m => m.about kind name := by
  induction maps generalizing found with
  | nil => simp
  | cons m rest ih => rw [List.foldl_cons, ih, about_extend, List.flatMap_cons, List.append_assoc]

theorem mem_keys_iff_get? {m : ReferenceMap} {kind : MemberKind} {name : String} :
    name ∈ (m.get kind).keys ↔ ((m.get kind).get? name).isSome = true := by
  rw [SortedMap.mem_keys_iff, Option.isSome_iff_exists]

theorem mem_keys_extend {ours theirs : ReferenceMap} {kind : MemberKind} {name : String} :
    name ∈ ((ours.extend theirs).get kind).keys ↔
      name ∈ (ours.get kind).keys ∨ name ∈ (theirs.get kind).keys := by
  rw [mem_keys_iff_get?, extend, ByKind.get_fill, extendList, SortedMap.isSome_foldl_append,
    ← mem_keys_iff_get?]
  rfl

theorem mem_keys_foldl_extend {maps : List ReferenceMap} {found : ReferenceMap} {kind : MemberKind}
    {name : String} : name ∈ ((maps.foldl extend found).get kind).keys ↔
      name ∈ (found.get kind).keys ∨ ∃ m ∈ maps, name ∈ (m.get kind).keys := by
  induction maps generalizing found with
  | nil => simp
  | cons m rest ih => simp [ih, mem_keys_extend, or_assoc]

theorem eq_of_about {m n : ReferenceMap}
    (keys : ∀ kind name, name ∈ (m.get kind).keys ↔ name ∈ (n.get kind).keys)
    (lists : ∀ kind name, m.about kind name = n.about kind name) : m = n := by
  have parts (kind : MemberKind) : m.get kind = n.get kind := by
    apply SortedMap.ext_get?
    intro name
    have same := lists kind name
    have known := keys kind name
    unfold about at same
    rw [mem_keys_iff_get?, mem_keys_iff_get?] at known
    cases ours : (m.get kind).get? name <;> cases theirs : (n.get kind).get? name <;>
      simp_all
  obtain ⟨commands, events, types⟩ := m
  rw [show commands = n.commands from parts .command, show events = n.events from parts .event,
    show types = n.types from parts .type]

theorem mem_keys_empty {kind : MemberKind} {name : String} :
    name ∉ ((empty : ReferenceMap).get kind).keys := by
  rw [mem_keys_iff_get?, empty, ByKind.get_fill, SortedMap.get?_empty]
  simp

theorem empty_extend (m : ReferenceMap) : empty.extend m = m :=
  eq_of_about (fun kind name => by simp [mem_keys_extend, mem_keys_empty])
    (fun kind name => by simp [about_extend])

theorem extend_empty (m : ReferenceMap) : m.extend empty = m :=
  eq_of_about (fun kind name => by simp [mem_keys_extend, mem_keys_empty])
    (fun kind name => by simp [about_extend])

theorem extend_assoc (a b c : ReferenceMap) : (a.extend b).extend c = a.extend (b.extend c) :=
  eq_of_about (fun kind name => by simp [mem_keys_extend, or_assoc])
    (fun kind name => by simp [about_extend])

instance : Std.Associative extend := ⟨extend_assoc⟩

/-- Maps may be put together on their own before they are put behind what was found. -/
theorem extend_foldl_extend (found : ReferenceMap) (maps : List ReferenceMap) :
    found.extend (maps.foldl extend empty) = maps.foldl extend found := by
  have behind : maps.foldl extend (found.extend empty) = found.extend (maps.foldl extend empty) :=
    List.foldl_assoc
  rw [← behind, extend_empty]

theorem isReferenced_eq_true_iff {m : ReferenceMap} {kind : MemberKind} {name : String} :
    m.isReferenced kind name = true ↔ m.about kind name ≠ [] := by
  simp [isReferenced]

theorem isReferenced_foldl_extend {maps : List ReferenceMap} {kind : MemberKind} {name : String} :
    (maps.foldl extend empty).isReferenced kind name = true ↔
      ∃ m ∈ maps, m.isReferenced kind name = true := by
  simp only [isReferenced_eq_true_iff, about_foldl_extend, about_empty, List.nil_append, ne_eq,
    List.flatMap_eq_nil_iff, Classical.not_forall, exists_prop]

theorem mem_referenced_iff {m : ReferenceMap} {kind : MemberKind} {name : String} :
    name ∈ m.referenced kind ↔ m.isReferenced kind name = true := by
  rw [isReferenced_eq_true_iff, about, ← SortedMap.flatMap_toList_filter, Ne,
    List.flatMap_eq_nil_iff]
  simp [referenced, and_comm]

theorem nodup_referenced (m : ReferenceMap) (kind : MemberKind) : (m.referenced kind).Nodup :=
  (m.get kind).nodup_keys.sublist (List.filter_sublist.map _)

theorem mem_keys_of_isReferenced {m : ReferenceMap} {kind : MemberKind} {name : String}
    (referenced : m.isReferenced kind name = true) : name ∈ (m.get kind).keys := by
  obtain ⟨entry, kept, rfl⟩ := List.mem_map.mp (mem_referenced_iff.mpr referenced)
  exact List.mem_map_of_mem (List.mem_filter.mp kept).1

end ReferenceMap

namespace Schema

theorem mem_implementedSeeds_iff {s : Schema} {references : ReferenceMap} {seed : Seed} :
    seed ∈ s.implementedSeeds references ↔
      seed.name ∈ s.keys seed.kind ∧ references.isReferenced seed.kind seed.name = true := by
  simp only [implementedSeeds, List.mem_flatMap, List.mem_map, List.mem_filter]
  constructor
  · intro given
    rcases given with ⟨kind, -, name, both, rfl⟩
    exact both
  · intro both
    have every : seed.kind ∈ MemberKind.all := by
      cases seed.kind <;> simp [MemberKind.all]
    exact ⟨seed.kind, every, seed.name, both, rfl⟩

/-- Seeds depend only on which members have evidence, not on what it is. -/
theorem implementedSeeds_congr {s : Schema} {a b : ReferenceMap}
    (same : ∀ kind name, a.isReferenced kind name = b.isReferenced kind name) :
    s.implementedSeeds a = s.implementedSeeds b := by
  have tests (kind : MemberKind) : a.isReferenced kind = b.isReferenced kind := funext (same kind)
  simp only [implementedSeeds, tests]

end Schema
end SchemaTrace
