import SchemaTrace.Evidence
import SchemaTrace.Proofs.Comment.Index
import SchemaTrace.Proofs.Except
import SchemaTrace.Proofs.Model.Lookup
import SchemaTrace.Proofs.Needle.Occurrence

/-! The evidence for one member, file by file, and the map of all members that an extraction
collects. -/

namespace SchemaTrace

theorem ByKind.get_modify {α : Type} (b : ByKind α) (kind other : MemberKind) (f : α → α) :
    (b.modify kind f).get other = if kind = other then f (b.get other) else b.get other := by
  by_cases same : kind = other
  · rw [if_pos same, ← same]
    exact get_set_self b kind _
  · rw [if_neg same]
    exact get_set_of_ne b _ same

namespace Scanner

def Target.key (t : Target) : String := t.domain ++ "." ++ t.member

/-- What a kind of member is searched with: a rule, the filter of its subset, and a matcher of the
needles of one member. -/
structure Searches (s : Scanner) (t : Target) (rule : NeedleRule) (filter : PathFilter)
    (matcher : Needle.Matcher) : Prop where
  ruled : s.convention.rules.get t.kind = some rule
  filtered : s.filters.get? rule.subset = some filter
  matched : Needle.Matcher.ofNeedles? (rule.expand t.domain t.member) = some matcher

def Searchable (s : Scanner) (t : Target) : Prop :=
  s.convention.rules.get t.kind = none ∨ ∃ rule filter matcher, s.Searches t rule filter matcher

def commentsIn (s : Scanner) (snapshot : Snapshot) (key : String) (file : String × String) :
    List Reference :=
  if (s.convention.comments.filterMap s.filters.get?).any (PathFilter.admits · file.1) then
    (Comment.Index.aboutIn s.tag key (snapshot.sourceFile file.1, file.2)).map referenceOfComment
  else []

def needlesIn (s : Scanner) (snapshot : Snapshot) (t : Target) (file : String × String) :
    List Reference :=
  match s.convention.rules.get t.kind with
  | none => []
  | some rule =>
    match s.filters.get? rule.subset, Needle.Matcher.ofNeedles? (rule.expand t.domain t.member) with
    | some filter, some matcher =>
      if filter.admits file.1 then occurrencesIn matcher snapshot file else []
    | _, _ => []

variable {s : Scanner} {snapshot : Snapshot} {t : Target}

theorem flatMap_select {β : Type} (snapshot : Snapshot) (test : String → Bool)
    (f : String × String → List β) : (snapshot.select test).flatMap f =
      snapshot.files.flatMap fun file => if test file.1 then f file else [] := by
  unfold Snapshot.select
  induction snapshot.files with
  | nil => rfl
  | cons file rest ih =>
    by_cases passes : test file.1 = true
    · simp [passes, ih]
    · simp [passes, ih]

theorem filter_key_eq_singleton {α : Type} {keyOf : α → String} {members : List α}
    (distinct : (members.map keyOf).Nodup) {a : α} (inside : a ∈ members) :
    members.filter (fun b => keyOf b = keyOf a) = [a] := by
  induction members with
  | nil => simp at inside
  | cons b rest ih =>
    rw [List.map_cons, List.nodup_cons] at distinct
    rcases List.mem_cons.mp inside with rfl | later
    · have none : rest.filter (fun b => keyOf b = keyOf a) = [] := by
        apply List.filter_eq_nil_iff.mpr
        intro b member same
        exact distinct.1 (of_decide_eq_true same ▸ List.mem_map_of_mem member)
      simp [none]
    · have differs : keyOf b ≠ keyOf a := by
        intro same
        exact distinct.1 (same ▸ List.mem_map_of_mem later)
      simp [differs, ih distinct.2 later]

theorem comments_about (s : Scanner) (snapshot : Snapshot) (key : String) :
    ((s.indexComments snapshot).about key).map referenceOfComment =
      snapshot.files.flatMap (s.commentsIn snapshot key) := by
  unfold indexComments
  rw [Comment.Index.about_ofFiles, List.flatMap_map, List.map_flatMap, flatMap_select]
  rfl

theorem needlesIn_of_searches {rule : NeedleRule} {filter : PathFilter} {matcher : Needle.Matcher}
    (searches : s.Searches t rule filter matcher) (file : String × String) :
    s.needlesIn snapshot t file =
      if filter.admits file.1 then occurrencesIn matcher snapshot file else [] := by
  simp only [needlesIn, searches.ruled, searches.filtered, searches.matched]

theorem needlesIn_of_no_rule (none : s.convention.rules.get t.kind = none)
    (file : String × String) : s.needlesIn snapshot t file = [] := by
  simp only [needlesIn, none]

theorem flatMap_needlesIn {rule : NeedleRule} {filter : PathFilter} {matcher : Needle.Matcher}
    (searches : s.Searches t rule filter matcher) :
    snapshot.files.flatMap (s.needlesIn snapshot t) =
      (snapshot.select filter.admits).flatMap (occurrencesIn matcher snapshot) := by
  rw [flatMap_select]
  exact List.flatMap_congr fun file _ => needlesIn_of_searches searches file

theorem occurrences_eq_ok_iff {found : List Reference} :
    s.occurrences snapshot t.kind t.domain t.member = .ok found ↔
      s.Searchable t ∧ found = snapshot.files.flatMap (s.needlesIn snapshot t) := by
  unfold occurrences
  cases rule : s.convention.rules.get t.kind with
  | none =>
    have nothing : snapshot.files.flatMap (s.needlesIn snapshot t) = [] := by
      simp [needlesIn_of_no_rule rule]
    simp [Searchable, rule, nothing, pure, Except.pure, eq_comm]
  | some rule' =>
    constructor
    · intro run
      obtain ⟨filter, filtered, run⟩ := Except.bind_eq_ok_iff.mp run
      have stored : s.filters.get? rule'.subset = some filter := by
        unfold Scanner.filter at filtered
        split at filtered
        · next other held =>
          rw [held, Except.ok.inj filtered]
        · cases filtered
      cases matcher : Needle.Matcher.ofNeedles? (rule'.expand t.domain t.member) with
      | none =>
        rw [matcher] at run
        cases run
      | some matcher' =>
        rw [matcher] at run
        have searches : s.Searches t rule' filter matcher' := ⟨rule, stored, matcher⟩
        refine ⟨.inr ⟨rule', filter, matcher', searches⟩, ?_⟩
        rw [flatMap_needlesIn searches]
        exact (Except.ok.inj run).symm
    · intro given
      rcases given with ⟨searchable, rfl⟩
      rcases searchable with none | ⟨rule', filter, matcher, searches⟩
      · rw [rule] at none
        cases none
      · obtain rfl := Option.some.inj (rule.symm.trans searches.ruled)
        rw [flatMap_needlesIn searches]
        simp only [Scanner.filter, searches.filtered, searches.matched, bind, Except.bind, pure,
          Except.pure]

/-- The evidence for a member: what each file says in comments, then the occurrences in each
file. -/
def evidenceIn (s : Scanner) (snapshot : Snapshot) (t : Target) : List Reference :=
  snapshot.files.flatMap (s.commentsIn snapshot t.key) ++
    snapshot.files.flatMap (s.needlesIn snapshot t)

theorem evidence_eq_ok_iff {references : List Reference} :
    s.evidence (s.indexComments snapshot) snapshot t.kind t.domain t.member = .ok references ↔
      s.Searchable t ∧ references = s.evidenceIn snapshot t := by
  unfold evidence
  rw [Except.bind_eq_ok_iff, show t.domain ++ "." ++ t.member = t.key from rfl, comments_about]
  simp only [occurrences_eq_ok_iff, pure, Except.pure, Except.ok.injEq]
  constructor
  · intro given
    rcases given with ⟨found, ⟨searchable, rfl⟩, rfl⟩
    exact ⟨searchable, rfl⟩
  · intro given
    rcases given with ⟨searchable, rfl⟩
    exact ⟨_, ⟨searchable, rfl⟩, rfl⟩

def enter (s : Scanner) (snapshot : Snapshot) (found : ReferenceMap) (t : Target) : ReferenceMap :=
  found.modify t.kind fun list => list.append t.key (s.evidenceIn snapshot t)

theorem collect_eq_ok_iff {found out : ReferenceMap} {members : List Target} :
    s.collect (s.indexComments snapshot) snapshot found members = .ok out ↔
      (∀ t ∈ members, s.Searchable t) ∧ out = members.foldl (s.enter snapshot) found := by
  induction members generalizing found with
  | nil => simp [collect, eq_comm]
  | cons t rest ih =>
    rw [collect, Except.bind_eq_ok_iff]
    simp only [evidence_eq_ok_iff, ih, List.forall_mem_cons, List.foldl_cons]
    constructor
    · intro given
      rcases given with ⟨references, ⟨searchable, rfl⟩, others, eq⟩
      exact ⟨⟨searchable, others⟩, eq⟩
    · intro given
      rcases given with ⟨⟨searchable, others⟩, eq⟩
      exact ⟨_, ⟨searchable, rfl⟩, others, eq⟩

theorem get_foldl_enter (members : List Target) (found : ReferenceMap) (kind : MemberKind) :
    (members.foldl (s.enter snapshot) found).get kind =
      (members.filter fun t => t.kind = kind).foldl
        (fun list t => list.append t.key (s.evidenceIn snapshot t)) (found.get kind) := by
  induction members generalizing found with
  | nil => rfl
  | cons t rest ih =>
    rw [List.foldl_cons, ih, enter, ByKind.get_modify]
    by_cases same : t.kind = kind
    · simp [same]
    · simp [same]

theorem mem_targets_iff {schema : Schema} : t ∈ targets schema ↔
    ∃ d ∈ schema.domains, d.name = t.domain ∧ t.member ∈ d.memberNames t.kind := by
  obtain ⟨kind, domain, member⟩ := t
  have every : kind ∈ MemberKind.all := by cases kind <;> decide
  simp only [targets, List.mem_flatMap, List.mem_map, Target.mk.injEq]
  constructor
  · intro given
    rcases given with ⟨d, inside, _, _, name, declared, rfl, rfl, rfl⟩
    exact ⟨d, inside, rfl, declared⟩
  · intro given
    rcases given with ⟨d, inside, rfl, declared⟩
    exact ⟨d, inside, kind, every, member, declared, rfl, rfl, rfl⟩

theorem map_key_targets (schema : Schema) (kind : MemberKind) :
    ((targets schema).filter fun t => t.kind = kind).map Target.key = schema.keys kind := by
  simp only [targets, Schema.keys, List.filter_flatMap, List.map_flatMap]
  apply List.flatMap_congr
  intro d _
  cases kind <;> simp [MemberKind.all, List.filter_map, Function.comp_def, Target.key, Domain.key]

theorem extract_eq_ok_iff {schema : Schema} {found : ReferenceMap} :
    s.extract (s.indexComments snapshot) snapshot schema = .ok found ↔
      (∀ t ∈ targets schema, s.Searchable t) ∧
        found = (targets schema).foldl (s.enter snapshot) .empty :=
  collect_eq_ok_iff

theorem contains_extract {schema : Schema} {found : ReferenceMap}
    (run : s.extract (s.indexComments snapshot) snapshot schema = .ok found) (kind : MemberKind)
    (key : String) : (found.get kind).contains key = true ↔ key ∈ schema.keys kind := by
  obtain ⟨-, rfl⟩ := extract_eq_ok_iff.mp run
  rw [SortedMap.contains, get_foldl_enter, SortedMap.isSome_foldl_append, map_key_targets]
  simp [ReferenceMap.empty]

/-- Under the key of a member stands the evidence for that member and nothing else. -/
theorem get?_extract {schema : Schema} {model : Model}
    (accepted : Model.ofSchema schema = .ok model) {found : ReferenceMap}
    (run : s.extract (s.indexComments snapshot) snapshot schema = .ok found)
    (declared : t ∈ targets schema) :
    (found.get t.kind).get? t.key = some (s.evidenceIn snapshot t) := by
  obtain ⟨-, rfl⟩ := extract_eq_ok_iff.mp run
  have distinct := (Model.unambiguous_of_ofSchema accepted).members t.kind
  rw [← map_key_targets] at distinct
  have inside : t ∈ (targets schema).filter fun u => u.kind = t.kind :=
    List.mem_filter.mpr ⟨declared, decide_eq_true rfl⟩
  have alone := filter_key_eq_singleton distinct inside
  have held := SortedMap.isSome_foldl_append ((targets schema).filter fun u => u.kind = t.kind)
    Target.key (s.evidenceIn snapshot) .empty t.key
  have list := SortedMap.getD_foldl_append ((targets schema).filter fun u => u.kind = t.kind)
    Target.key (s.evidenceIn snapshot) .empty t.key
  rw [alone, SortedMap.get?_empty, Option.getD_none, List.nil_append,
    List.flatMap_singleton] at list
  rw [get_foldl_enter, ReferenceMap.empty, ByKind.get_fill]
  obtain ⟨references, found⟩ :=
    Option.isSome_iff_exists.mp (held.mpr (.inr (List.mem_map_of_mem inside)))
  rw [found, Option.getD_some] at list
  rw [found, list]

end Scanner
end SchemaTrace
