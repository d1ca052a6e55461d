import SchemaTrace.Proofs.Comment.Annotation
import SchemaTrace.Proofs.Convention.Subset
import SchemaTrace.Proofs.Evidence.Collect

/-! What an extraction lists for a member: every tagged comment and every bounded occurrence that
its convention tells to look for, nothing else, and nothing twice. -/

namespace SchemaTrace

/-- One reference comes before another: in an earlier file of the snapshot, or earlier in the same
file. -/
def Reference.Precedes (snapshot : Snapshot) (a b : Reference) : Prop :=
  ∃ pathA pathB, a.source = some (snapshot.sourceFile pathA) ∧
    b.source = some (snapshot.sourceFile pathB) ∧
    ([pathA, pathB].Sublist snapshot.paths ∨
      pathA = pathB ∧ a.location.position.Before b.location.position)

namespace Scanner

/-- A file of a snapshot in which a member is searched for with a rule. -/
structure SearchedFile (c : Convention) (snapshot : Snapshot) (t : Target) (rule : NeedleRule)
    (file : String × String) : Prop where
  ruled : c.rules.get t.kind = some rule
  inside : file ∈ snapshot.files
  covered : c.Covers rule.subset file.1

/-- A needle of a member stands bounded in a file, behind the text `before`. -/
def StandsIn (rule : NeedleRule) (t : Target) (file : String × String) (before needle : Text) :
    Prop :=
  needle ∈ rule.expand t.domain t.member ∧ needle ≠ [] ∧
    ∃ rest, file.2.toList = before ++ needle ++ rest ∧ Needle.StandsBetween before needle rest

/-- Of the needles of a member that stand bounded behind `before` the first one in the rule. -/
def FirstIn (rule : NeedleRule) (t : Target) (file : String × String) (before needle : Text) :
    Prop :=
  StandsIn rule t file before needle ∧
    ∃ earlier later, rule.expand t.domain t.member = earlier ++ needle :: later ∧
      ∀ other ∈ earlier, ¬StandsIn rule t file before other

def placeAfter (snapshot : Snapshot) (file : String × String) (before : Text) : Reference :=
  .occurrence ⟨some (snapshot.sourceFile file.1), .after before⟩

structure TaggedIn (c : Convention) (tag : String) (snapshot : Snapshot) (key : String)
    (file : String × String) (a : Comment.Annotation) : Prop where
  inside : file ∈ snapshot.files
  covered : ∃ subset ∈ c.comments, c.Covers subset file.1
  tagged : a ∈ ((Comment.parse tag.toList file.2.toList).get? key).getD []

/-- What a list of references must be to be the evidence for a member in a snapshot. -/
structure IsEvidence (c : Convention) (tag : String) (snapshot : Snapshot) (t : Target)
    (references : List Reference) : Prop where
  /-- The comments come first. -/
  grouped : ∃ comments occurrences, references = comments ++ occurrences ∧
    (∀ r ∈ comments, r.isComment = true) ∧ ∀ r ∈ occurrences, r.isComment = false
  sourced : ∀ r ∈ references, ∃ path ∈ snapshot.paths, r.source = some (snapshot.sourceFile path)
  /-- An occurrence is the place of a needle of the member, the first in the rule of those that
  stand bounded there, in a file of the subset of the rule. -/
  sound : ∀ r ∈ references, r.isComment = false → ∃ rule file before needle,
    SearchedFile c snapshot t rule file ∧ FirstIn rule t file before needle ∧
      r = placeAfter snapshot file before
  /-- A needle that stands bounded in a file of the subset is listed, or it begins strictly inside
  the text of one that is. -/
  complete : ∀ rule file before needle, SearchedFile c snapshot t rule file →
    StandsIn rule t file before needle →
      placeAfter snapshot file before ∈ references ∨
        ∃ before' needle', FirstIn rule t file before' needle' ∧
          placeAfter snapshot file before' ∈ references ∧
          before'.length < before.length ∧ before.length < before'.length + needle'.length
  comments : ∀ r, (r ∈ references ∧ r.isComment = true) ↔
    ∃ file a, TaggedIn c tag snapshot t.key file a ∧
      r = referenceOfComment ⟨snapshot.sourceFile file.1, a⟩
  /-- Both groups follow the order of the files and the order of each text. -/
  ordered : (references.filter fun r => r.isComment).Pairwise (Reference.Precedes snapshot) ∧
    (references.filter fun r => !r.isComment).Pairwise (Reference.Precedes snapshot)
  distinct : references.Nodup

variable {c : Convention} {tag : String} {filters : SortedMap PathFilter} {snapshot : Snapshot}
  {t : Target} {file : String × String} {r : Reference}

theorem mem_commentsIn_iff (compiled : c.compile = .ok filters) {key : String} :
    r ∈ commentsIn ⟨c, filters, tag⟩ snapshot key file ↔
      (∃ subset ∈ c.comments, c.Covers subset file.1) ∧
        ∃ a ∈ ((Comment.parse tag.toList file.2.toList).get? key).getD [],
          r = referenceOfComment ⟨snapshot.sourceFile file.1, a⟩ := by
  have admitted : (c.comments.filterMap filters.get?).any (PathFilter.admits · file.1) = true ↔
      ∃ subset ∈ c.comments, c.Covers subset file.1 := by
    simp only [List.any_eq_true, List.mem_filterMap, Convention.covers_iff compiled]
    constructor
    · intro given
      rcases given with ⟨filter, ⟨subset, listed, held⟩, admits⟩
      exact ⟨subset, listed, filter, held, admits⟩
    · intro given
      rcases given with ⟨subset, listed, filter, held, admits⟩
      exact ⟨filter, ⟨subset, listed, held⟩, admits⟩
  unfold commentsIn
  rw [← admitted]
  split
  · next indexed =>
    simp only [Comment.Index.aboutIn, List.map_map, List.mem_map, indexed, true_and,
      Function.comp_apply, eq_comm]
  · next indexed => simp [indexed]

theorem occurrencesIn_eq_map (matcher : Needle.Matcher) (snapshot : Snapshot)
    (file : String × String) : occurrencesIn matcher snapshot file =
      (matcher.matchesIn file.2.toList).map fun m => placeAfter snapshot file m.before := by
  simp only [occurrencesIn, Needle.Matcher.findAll_eq_map, List.map_map]
  apply List.map_congr_left
  intro m member
  obtain ⟨-, rest, eq, -⟩ := Needle.Matcher.stands_of_mem_matchesIn member
  rw [List.append_assoc] at eq
  simp only [Function.comp_apply, eq, LineIndex.locate_of_append, placeAfter]

theorem mem_needlesIn_iff {s : Scanner} : r ∈ s.needlesIn snapshot t file ↔
    ∃ rule filter matcher, s.Searches t rule filter matcher ∧ filter.admits file.1 = true ∧
      ∃ m ∈ matcher.matchesIn file.2.toList, r = placeAfter snapshot file m.before := by
  constructor
  · intro member
    cases ruled : s.convention.rules.get t.kind with
    | none => simp [needlesIn_of_no_rule ruled] at member
    | some rule =>
      cases filtered : s.filters.get? rule.subset with
      | none => simp [needlesIn, ruled, filtered] at member
      | some filter =>
        cases matched : Needle.Matcher.ofNeedles? (rule.expand t.domain t.member) with
        | none => simp [needlesIn, ruled, filtered, matched] at member
        | some matcher =>
          have searches : s.Searches t rule filter matcher := ⟨ruled, filtered, matched⟩
          rw [needlesIn_of_searches searches, occurrencesIn_eq_map] at member
          split at member
          · next admits =>
            obtain ⟨m, found, eq⟩ := List.mem_map.mp member
            exact ⟨rule, filter, matcher, searches, admits, m, found, eq.symm⟩
          · simp at member
  · intro given
    rcases given with ⟨rule, filter, matcher, searches, admits, m, found, rfl⟩
    rw [needlesIn_of_searches searches, occurrencesIn_eq_map, if_pos admits]
    exact List.mem_map_of_mem found

theorem isComment_of_mem_commentsIn {s : Scanner} {key : String}
    (member : r ∈ s.commentsIn snapshot key file) :
    r.isComment = true ∧ r.source = some (snapshot.sourceFile file.1) := by
  unfold commentsIn at member
  split at member
  · obtain ⟨found, inside, rfl⟩ := List.mem_map.mp member
    obtain ⟨a, -, rfl⟩ := List.mem_map.mp inside
    exact ⟨rfl, rfl⟩
  · simp at member

theorem isComment_of_mem_needlesIn {s : Scanner} (member : r ∈ s.needlesIn snapshot t file) :
    r.isComment = false ∧ r.source = some (snapshot.sourceFile file.1) := by
  obtain ⟨-, -, -, -, -, m, -, rfl⟩ := mem_needlesIn_iff.mp member
  exact ⟨rfl, rfl⟩

theorem forall_isComment (s : Scanner) (snapshot : Snapshot) (t : Target) :
    (∀ r ∈ snapshot.files.flatMap (s.commentsIn snapshot t.key), r.isComment = true) ∧
      ∀ r ∈ snapshot.files.flatMap (s.needlesIn snapshot t), r.isComment = false := by
  constructor
  · intro r member
    obtain ⟨file, -, inside⟩ := List.mem_flatMap.mp member
    exact (isComment_of_mem_commentsIn inside).1
  · intro r member
    obtain ⟨file, -, inside⟩ := List.mem_flatMap.mp member
    exact (isComment_of_mem_needlesIn inside).1

theorem filter_evidenceIn (s : Scanner) (snapshot : Snapshot) (t : Target) :
    (s.evidenceIn snapshot t).filter (fun r => r.isComment) =
        snapshot.files.flatMap (s.commentsIn snapshot t.key) ∧
      (s.evidenceIn snapshot t).filter (fun r => !r.isComment) =
        snapshot.files.flatMap (s.needlesIn snapshot t) := by
  obtain ⟨comment, occurrence⟩ := forall_isComment s snapshot t
  constructor
  · have none : (snapshot.files.flatMap (s.needlesIn snapshot t)).filter
        (fun r => r.isComment) = [] := by
      apply List.filter_eq_nil_iff.mpr
      intro r member
      simp [occurrence r member]
    rw [evidenceIn, List.filter_append, none, List.filter_eq_self.mpr comment, List.append_nil]
  · have none : (snapshot.files.flatMap (s.commentsIn snapshot t.key)).filter
        (fun r => !r.isComment) = [] := by
      apply List.filter_eq_nil_iff.mpr
      intro r member
      simp [comment r member]
    have all : (snapshot.files.flatMap (s.needlesIn snapshot t)).filter
        (fun r => !r.isComment) = snapshot.files.flatMap (s.needlesIn snapshot t) := by
      apply List.filter_eq_self.mpr
      intro r member
      simp [occurrence r member]
    rw [evidenceIn, List.filter_append, none, all, List.nil_append]

theorem precedes_flatMap {f : String × String → List Reference}
    (sourced : ∀ file, ∀ r ∈ f file, r.source = some (snapshot.sourceFile file.1))
    (inner : ∀ file, (f file).Pairwise fun a b =>
      a.location.position.Before b.location.position) :
    (snapshot.files.flatMap f).Pairwise (Reference.Precedes snapshot) := by
  apply List.pairwise_flatMap.mpr
  constructor
  · intro file _
    apply (inner file).imp_of_mem
    intro a b memberA memberB before
    exact ⟨file.1, file.1, sourced file a memberA, sourced file b memberB, .inr ⟨rfl, before⟩⟩
  · apply List.pairwise_iff_forall_sublist.mpr
    intro file file' earlier a memberA b memberB
    exact ⟨file.1, file'.1, sourced file a memberA, sourced file' b memberB,
      .inl (List.Sublist.map Prod.fst earlier)⟩

theorem commentsIn_pairwise (s : Scanner) (snapshot : Snapshot) (key : String)
    (file : String × String) : (s.commentsIn snapshot key file).Pairwise fun a b =>
      a.location.position.Before b.location.position := by
  unfold commentsIn
  split
  · rw [Comment.Index.aboutIn, List.map_map, List.pairwise_map]
    exact Comment.parse_pairwise s.tag.toList file.2.toList key
  · exact .nil

theorem needlesIn_pairwise (s : Scanner) (snapshot : Snapshot) (t : Target)
    (file : String × String) : (s.needlesIn snapshot t file).Pairwise fun a b =>
      a.location.position.Before b.location.position := by
  by_cases searched : ∃ rule filter matcher, s.Searches t rule filter matcher ∧
      filter.admits file.1 = true
  · obtain ⟨rule, filter, matcher, searches, admits⟩ := searched
    rw [needlesIn_of_searches searches, if_pos admits, occurrencesIn_eq_map, List.pairwise_map]
    apply (matcher.matchesIn_pairwise file.2.toList).imp_of_mem
    intro a b memberA memberB apart
    obtain ⟨listed, restA, eqA, -⟩ := Needle.Matcher.stands_of_mem_matchesIn memberA
    obtain ⟨-, restB, eqB, -⟩ := Needle.Matcher.stands_of_mem_matchesIn memberB
    have width := Text.byteLength_pos (matcher.needle_ne_nil a.needle listed)
    rw [List.append_assoc] at eqA eqB
    exact Position.after_before_of_byteLength_lt (eqA.symm.trans eqB) (by omega)
  · have none : s.needlesIn snapshot t file = [] := by
      apply List.eq_nil_iff_forall_not_mem.mpr
      intro r member
      obtain ⟨rule, filter, matcher, searches, admits, -⟩ := mem_needlesIn_iff.mp member
      exact searched ⟨rule, filter, matcher, searches, admits⟩
    rw [none]
    exact .nil

theorem nodup_of_precedes {references : List Reference}
    (ordered : references.Pairwise (Reference.Precedes snapshot)) : references.Nodup := by
  apply ordered.imp
  intro a b precedes same
  obtain ⟨pathA, pathB, sourceA, sourceB, order⟩ := precedes
  subst same
  have path : pathA = pathB :=
    congrArg SourceFile.path (Option.some.inj (sourceA.symm.trans sourceB))
  subst path
  rcases order with twice | ⟨-, before⟩
  · exact List.nodup_iff_sublist.mp snapshot.nodup_paths pathA twice
  · exact Position.Before.irrefl _ before

theorem stands_iff_mem_needles {rule : NeedleRule} {matcher : Needle.Matcher}
    (compiled : Needle.Matcher.ofNeedles? (rule.expand t.domain t.member) = some matcher)
    {before needle : Text} : StandsIn rule t file before needle ↔ needle ∈ matcher.needles ∧
      ∃ rest, file.2.toList = before ++ needle ++ rest ∧
        Needle.StandsBetween before needle rest := by
  rw [Needle.Matcher.mem_needles_iff compiled, and_assoc]
  rfl

theorem firstIn_of_mem_matchesIn {rule : NeedleRule} {matcher : Needle.Matcher}
    (compiled : Needle.Matcher.ofNeedles? (rule.expand t.domain t.member) = some matcher)
    {m : Needle.Match} (member : m ∈ matcher.matchesIn file.2.toList) :
    FirstIn rule t file m.before m.needle := by
  obtain ⟨earlier, later, eq, refused⟩ := Needle.Matcher.first_of_mem_matchesIn compiled member
  refine ⟨(stands_iff_mem_needles compiled).mpr (Needle.Matcher.stands_of_mem_matchesIn member),
    earlier, later, eq, ?_⟩
  intro other inside stands
  obtain ⟨-, nonempty, rest, split, bounded⟩ := stands
  exact refused other inside nonempty rest split bounded

theorem mem_evidenceIn_iff {s : Scanner} : r ∈ s.evidenceIn snapshot t ↔
    ∃ file ∈ snapshot.files, r ∈ s.commentsIn snapshot t.key file ∨
      r ∈ s.needlesIn snapshot t file := by
  simp only [evidenceIn, List.mem_append, List.mem_flatMap]
  constructor
  · intro given
    rcases given with ⟨file, inside, member⟩ | ⟨file, inside, member⟩
    · exact ⟨file, inside, .inl member⟩
    · exact ⟨file, inside, .inr member⟩
  · intro given
    rcases given with ⟨file, inside, member | member⟩
    · exact .inl ⟨file, inside, member⟩
    · exact .inr ⟨file, inside, member⟩

theorem sound_evidenceIn (compiled : c.compile = .ok filters)
    (member : r ∈ evidenceIn ⟨c, filters, tag⟩ snapshot t) (occurrence : r.isComment = false) :
    ∃ rule file before needle, SearchedFile c snapshot t rule file ∧
      FirstIn rule t file before needle ∧ r = placeAfter snapshot file before := by
  obtain ⟨file, inside, member | member⟩ := mem_evidenceIn_iff.mp member
  · rw [(isComment_of_mem_commentsIn member).1] at occurrence
    cases occurrence
  · obtain ⟨rule, filter, matcher, searches, admits, m, found, rfl⟩ := mem_needlesIn_iff.mp member
    have covered := (Convention.covers_iff compiled).mpr ⟨filter, searches.filtered, admits⟩
    exact ⟨rule, file, m.before, m.needle, ⟨searches.ruled, inside, covered⟩,
      firstIn_of_mem_matchesIn searches.matched found, rfl⟩

theorem complete_evidenceIn (compiled : c.compile = .ok filters)
    (searchable : Searchable ⟨c, filters, tag⟩ t) {rule : NeedleRule}
    (searched : SearchedFile c snapshot t rule file) {before needle : Text}
    (stands : StandsIn rule t file before needle) :
    placeAfter snapshot file before ∈ evidenceIn ⟨c, filters, tag⟩ snapshot t ∨
      ∃ before' needle', FirstIn rule t file before' needle' ∧
        placeAfter snapshot file before' ∈ evidenceIn ⟨c, filters, tag⟩ snapshot t ∧
        before'.length < before.length ∧ before.length < before'.length + needle'.length := by
  rcases searchable with none | ⟨rule', filter, matcher, searches⟩
  · rw [searched.ruled] at none
    cases none
  · obtain rfl := Option.some.inj (searched.ruled.symm.trans searches.ruled)
    obtain ⟨filter', held, admits⟩ := (Convention.covers_iff compiled).mp searched.covered
    obtain rfl := Option.some.inj (searches.filtered.symm.trans held)
    have listed {m : Needle.Match} (found : m ∈ matcher.matchesIn file.2.toList) :
        placeAfter snapshot file m.before ∈ evidenceIn ⟨c, filters, tag⟩ snapshot t := by
      apply mem_evidenceIn_iff.mpr
      refine ⟨file, searched.inside, .inr (mem_needlesIn_iff.mpr ?_)⟩
      exact ⟨rule, filter, matcher, searches, admits, m, found, rfl⟩
    obtain ⟨member, rest, split, bounded⟩ := (stands_iff_mem_needles searches.matched).mp stands
    obtain ⟨m, found, place⟩ := Needle.Matcher.exists_mem_matchesIn member split bounded
    rcases place with rfl | inside
    · exact .inl (listed found)
    · exact .inr ⟨m.before, m.needle, firstIn_of_mem_matchesIn searches.matched found,
        listed found, inside⟩

theorem comments_evidenceIn (compiled : c.compile = .ok filters) :
    (r ∈ evidenceIn ⟨c, filters, tag⟩ snapshot t ∧ r.isComment = true) ↔
      ∃ file a, TaggedIn c tag snapshot t.key file a ∧
        r = referenceOfComment ⟨snapshot.sourceFile file.1, a⟩ := by
  rw [mem_evidenceIn_iff]
  constructor
  · intro given
    obtain ⟨⟨file, inside, member | member⟩, isComment⟩ := given
    · obtain ⟨covered, a, tagged, eq⟩ := (mem_commentsIn_iff compiled).mp member
      exact ⟨file, a, ⟨inside, covered, tagged⟩, eq⟩
    · rw [(isComment_of_mem_needlesIn member).1] at isComment
      cases isComment
  · intro given
    obtain ⟨file, a, tagged, eq⟩ := given
    have member : r ∈ commentsIn ⟨c, filters, tag⟩ snapshot t.key file :=
      (mem_commentsIn_iff compiled).mpr ⟨tagged.covered, a, tagged.tagged, eq⟩
    exact ⟨⟨file, tagged.inside, .inl member⟩, (isComment_of_mem_commentsIn member).1⟩

theorem ordered_evidenceIn (s : Scanner) (snapshot : Snapshot) (t : Target) :
    (snapshot.files.flatMap (s.commentsIn snapshot t.key)).Pairwise
        (Reference.Precedes snapshot) ∧
      (snapshot.files.flatMap (s.needlesIn snapshot t)).Pairwise
        (Reference.Precedes snapshot) := by
  constructor
  · apply precedes_flatMap
    · exact fun file r member => (isComment_of_mem_commentsIn member).2
    · exact commentsIn_pairwise s snapshot t.key
  · apply precedes_flatMap
    · exact fun file r member => (isComment_of_mem_needlesIn member).2
    · exact needlesIn_pairwise s snapshot t

theorem nodup_evidenceIn (s : Scanner) (snapshot : Snapshot) (t : Target) :
    (s.evidenceIn snapshot t).Nodup := by
  obtain ⟨comment, occurrence⟩ := forall_isComment s snapshot t
  obtain ⟨comments, occurrences⟩ := ordered_evidenceIn s snapshot t
  apply List.nodup_append.mpr
  refine ⟨nodup_of_precedes comments, nodup_of_precedes occurrences, ?_⟩
  intro r member r' member' same
  have isComment := comment r member
  rw [same, occurrence r' member'] at isComment
  cases isComment

theorem isEvidence_evidenceIn (compiled : c.compile = .ok filters)
    (searchable : Searchable ⟨c, filters, tag⟩ t) :
    IsEvidence c tag snapshot t (evidenceIn ⟨c, filters, tag⟩ snapshot t) where
  grouped := ⟨_, _, rfl, forall_isComment ⟨c, filters, tag⟩ snapshot t⟩
  sourced r member := by
    obtain ⟨file, inside, member | member⟩ := mem_evidenceIn_iff.mp member
    · exact ⟨file.1, List.mem_map_of_mem inside, (isComment_of_mem_commentsIn member).2⟩
    · exact ⟨file.1, List.mem_map_of_mem inside, (isComment_of_mem_needlesIn member).2⟩
  sound r member occurrence := sound_evidenceIn compiled member occurrence
  complete rule file before needle searched stands :=
    complete_evidenceIn compiled searchable searched stands
  comments r := comments_evidenceIn compiled
  ordered := by
    obtain ⟨comments, occurrences⟩ := filter_evidenceIn ⟨c, filters, tag⟩ snapshot t
    rw [comments, occurrences]
    exact ordered_evidenceIn ⟨c, filters, tag⟩ snapshot t
  distinct := nodup_evidenceIn ⟨c, filters, tag⟩ snapshot t

/-- An extraction maps exactly the members of the schema, each to its evidence in the snapshot. -/
theorem extract_exact {c : Convention} {filters : SortedMap PathFilter}
    (compiled : c.compile = .ok filters) (tag : String) {snapshot : Snapshot} {schema : Schema}
    {model : Model} (accepted : Model.ofSchema schema = .ok model) {found : ReferenceMap}
    (run : extract ⟨c, filters, tag⟩ (indexComments ⟨c, filters, tag⟩ snapshot) snapshot schema =
      .ok found) :
    (∀ kind key, (found.get kind).contains key = true ↔ key ∈ schema.keys kind) ∧
      ∀ d ∈ schema.domains, ∀ kind, ∀ member ∈ d.memberNames kind, ∃ references,
        (found.get kind).get? (d.key member) = some references ∧
          IsEvidence c tag snapshot ⟨kind, d.name, member⟩ references := by
  constructor
  · exact contains_extract run
  · intro d inside kind member declared
    have target : ⟨kind, d.name, member⟩ ∈ targets schema :=
      mem_targets_iff.mpr ⟨d, inside, rfl, declared⟩
    have searchable := (extract_eq_ok_iff.mp run).1 _ target
    exact ⟨_, get?_extract accepted run target, isEvidence_evidenceIn compiled searchable⟩

def agentConvention : Convention where
  displayName := "agent"
  repo := { owner := "o", name := "r" }
  scope := {}
  subsets := SortedMap.empty.insert "src" { included := ["src/*"] }
  rules := ⟨some { subset := "src", needles := ["m::{member}", "{member}"] }, none, none⟩
  comments := [allFiles]

def agentSnapshot : Snapshot where
  owner := "o"
  repo := "r"
  commit := "c"
  files := [("src/agent.c", "// @cdp A.go\n// Starts.\nm::go(go);"),
    ("notes.md", "go /* @cdp A.go */")]
  distinct := by decide

def agentSchema : Schema where
  domains := [{ name := "A", commands := some [{ name := "go" }, { name := "stop" }] }]

/-- The evidence for the first command: two comments, and three occurrences of which one lies in a
comment. The needle inside the longer one is not listed. -/
def agentEvidence : List Reference :=
  let source := agentSnapshot.sourceFile "src/agent.c"
  [.comment ⟨some source, ⟨1, 1⟩⟩ "A.go\nStarts." true,
    .comment ⟨some (agentSnapshot.sourceFile "notes.md"), ⟨1, 4⟩⟩ "A.go" false,
    .occurrence ⟨some source, ⟨1, 11⟩⟩, .occurrence ⟨some source, ⟨3, 1⟩⟩,
    .occurrence ⟨some source, ⟨3, 7⟩⟩]

def agentReferences : ReferenceMap where
  commands := .ofList [("A.go", agentEvidence), ("A.stop", [])]
  events := .empty
  types := .empty

theorem extract_agentSnapshot : ∃ filters, agentConvention.compile = .ok filters ∧
    extract ⟨agentConvention, filters, "@cdp"⟩
      (indexComments ⟨agentConvention, filters, "@cdp"⟩ agentSnapshot) agentSnapshot agentSchema =
        .ok agentReferences := by
  apply Except.bind_eq_ok_iff.mp
  decide +kernel

theorem exists_model_agentSchema : ∃ model, Model.ofSchema agentSchema = .ok model := ⟨_, rfl⟩

theorem extract_exact_agent :
    (agentReferences.commands.contains "A.stop" = true ↔
      "A.stop" ∈ agentSchema.keys .command) ∧
    IsEvidence agentConvention "@cdp" agentSnapshot ⟨.command, "A", "go"⟩ agentEvidence := by
  obtain ⟨filters, compiled, run⟩ := extract_agentSnapshot
  obtain ⟨model, accepted⟩ := exists_model_agentSchema
  obtain ⟨keys, evidence⟩ := extract_exact compiled "@cdp" accepted run
  obtain ⟨references, stored, isEvidence⟩ :=
    evidence _ (.head _) .command "go" (List.mem_cons_self)
  have listed : agentReferences.commands.get? "A.go" = some agentEvidence := by decide
  obtain rfl : references = agentEvidence := Option.some.inj (stored.symm.trans listed)
  exact ⟨keys .command "A.stop", isEvidence⟩

end Scanner
end SchemaTrace
