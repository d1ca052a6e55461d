import SchemaTrace.Proofs.Comment.Token
import SchemaTrace.Proofs.Convention.Checked
import SchemaTrace.Proofs.Evidence.Collect
import SchemaTrace.Proofs.Needle.Template
import SchemaTrace.Proofs.Text.Position

/-! Extractions that cannot fail. What is checked when a convention is compiled rules out every
error of a later scan: each subset has a filter, each needle of a member with a name is a text that
is not empty, and each place where something is found lies between two characters of its file. -/

namespace SchemaTrace

def Schema.Named (s : Schema) : Prop :=
  ∀ d ∈ s.domains, d.name ≠ "" ∧ ∀ kind, ∀ member ∈ d.memberNames kind, member ≠ ""

namespace Convention

variable {c : Convention} {filters : SortedMap PathFilter} {rule : NeedleRule}

theorem exists_filter_of_referred (compiled : c.compile = .ok filters) {subset : String}
    (referred : subset ∈ c.referredSubsets) : ∃ filter, filters.get? subset = some filter :=
  Option.isSome_iff_exists.mp ((compile_eq_ok_iff.mp compiled).2.1 subset referred)

theorem subset_mem_referredSubsets {kind : MemberKind} (ruled : c.rules.get kind = some rule) :
    rule.subset ∈ c.referredSubsets := by
  have every : kind ∈ MemberKind.all := by cases kind <;> decide
  refine List.mem_append_left _ (List.mem_filterMap.mpr ⟨kind, every, ?_⟩)
  rw [ruled, Option.map_some]

theorem IsRule.needle_ne_nil (isRule : IsRule rule) {domain member : String}
    (namedDomain : domain ≠ "") (namedMember : member ≠ "") :
    ∀ needle ∈ rule.expand domain member, needle ≠ [] := by
  intro needle expanded
  obtain ⟨template, listed, rfl⟩ := List.mem_map.mp expanded
  have nonempty := (Template.check_eq_ok_iff.mp (isRule.templates template listed)).1
  exact Template.expand_ne_nil nonempty (String.toList_eq_nil_iff.not.mpr namedDomain)
    (String.toList_eq_nil_iff.not.mpr namedMember)

/-- None of the needles of a rule is left out of the matcher for a member with a name. -/
theorem IsRule.exists_matcher (isRule : IsRule rule) {domain member : String}
    (namedDomain : domain ≠ "") (namedMember : member ≠ "") :
    ∃ matcher, Needle.Matcher.ofNeedles? (rule.expand domain member) = some matcher ∧
      matcher.needles = rule.expand domain member := by
  have each := isRule.needle_ne_nil namedDomain namedMember
  have some : rule.expand domain member ≠ [] := by simpa [NeedleRule.expand] using isRule.nonempty
  have kept : (rule.expand domain member).filter (fun needle => !needle.isEmpty) =
      rule.expand domain member := by
    apply List.filter_eq_self.mpr
    intro needle expanded
    simpa using each needle expanded
  refine ⟨⟨rule.expand domain member, some, each⟩, ?_, rfl⟩
  rw [Needle.Matcher.ofNeedles?_eq_some_iff, kept]

end Convention

theorem Needle.Matcher.locates_of_mem_findAll {matcher : Needle.Matcher} {content : Text}
    {offset : Nat} (taken : offset ∈ matcher.findAll content) :
    LineIndex.Locates content offset := by
  rw [findAll_eq_map] at taken
  obtain ⟨m, member, rfl⟩ := List.mem_map.mp taken
  obtain ⟨-, rest, split, -⟩ := stands_of_mem_matchesIn member
  rw [List.append_assoc] at split
  exact LineIndex.locates_of_append split

theorem Comment.locates_of_mem_spans {content : Text} {span : Comment.Span}
    (member : span ∈ Comment.spans content) : LineIndex.Locates content span.start := by
  obtain ⟨before, rest, split, start⟩ := (Comment.cuts_spans content).exists_split member
  rw [Nat.zero_add] at start
  rw [List.append_assoc] at split
  exact start ▸ LineIndex.locates_of_append split

namespace Scanner

variable {c : Convention} {filters : SortedMap PathFilter} {tag : String} {s : Scanner}
  {snapshot : Snapshot} {schema : Schema} {t : Target}

structure Equipped (c : Convention) (filters : SortedMap PathFilter) (snapshot : Snapshot)
    (schema : Schema) : Prop where
  ruled : ∀ kind rule, c.rules.get kind = some rule →
    ∃ filter, filters.get? rule.subset = some filter
  indexed : ∀ subset ∈ c.comments, ∃ filter, filters.get? subset = some filter
  needles : ∀ t ∈ targets schema, ∀ rule, c.rules.get t.kind = some rule →
    ∀ needle ∈ rule.expand t.domain t.member, needle ≠ []
  /-- Every member whose kind has a rule has a matcher, of all the needles of the rule. -/
  matched : ∀ t ∈ targets schema, ∀ rule, c.rules.get t.kind = some rule →
    ∃ matcher, Needle.Matcher.ofNeedles? (rule.expand t.domain t.member) = some matcher ∧
      matcher.needles = rule.expand t.domain t.member
  /-- What a matcher finds in a file can be located. -/
  occurrences : ∀ matcher : Needle.Matcher, ∀ file ∈ snapshot.files,
    ∀ offset ∈ matcher.findAll file.2.toList, LineIndex.Locates file.2.toList offset
  /-- The comments of a file can be located. -/
  comments : ∀ file ∈ snapshot.files, ∀ span ∈ Comment.spans file.2.toList,
    LineIndex.Locates file.2.toList span.start

theorem named_of_mem_targets (named : schema.Named) (inside : t ∈ targets schema) :
    t.domain ≠ "" ∧ t.member ≠ "" := by
  obtain ⟨d, declared, same, member⟩ := mem_targets_iff.mp inside
  exact ⟨same ▸ (named d declared).1, (named d declared).2 t.kind t.member member⟩

theorem equipped_of_compile (compiled : c.compile = .ok filters) (named : schema.Named) :
    Equipped c filters snapshot schema where
  ruled kind rule held :=
    Convention.exists_filter_of_referred compiled (Convention.subset_mem_referredSubsets held)
  indexed subset listed :=
    Convention.exists_filter_of_referred compiled (List.mem_append_right _ listed)
  needles t inside rule held := by
    have isRule := (Convention.compile_eq_ok_iff.mp compiled).2.2 t.kind rule held
    have names := named_of_mem_targets named inside
    exact isRule.needle_ne_nil names.1 names.2
  matched t inside rule held := by
    have isRule := (Convention.compile_eq_ok_iff.mp compiled).2.2 t.kind rule held
    have names := named_of_mem_targets named inside
    exact isRule.exists_matcher names.1 names.2
  occurrences _ _ _ _ taken := Needle.Matcher.locates_of_mem_findAll taken
  comments _ _ _ member := Comment.locates_of_mem_spans member

theorem Equipped.searchable (equipped : Equipped c filters snapshot schema)
    (inside : t ∈ targets schema) : Searchable ⟨c, filters, tag⟩ t := by
  cases held : c.rules.get t.kind with
  | none => exact .inl held
  | some rule =>
    obtain ⟨filter, filtered⟩ := equipped.ruled t.kind rule held
    obtain ⟨matcher, matched, -⟩ := equipped.matched t inside rule held
    exact .inr ⟨rule, filter, matcher, held, filtered, matched⟩

/-- Collecting fails only for a member that cannot be searched for, whatever the comments say. -/
theorem exists_collect {members : List Target} (each : ∀ t ∈ members, s.Searchable t)
    (comments : Comment.Index) (snapshot : Snapshot) (found : ReferenceMap) :
    ∃ out, s.collect comments snapshot found members = .ok out := by
  induction members generalizing found with
  | nil => exact ⟨found, rfl⟩
  | cons t rest ih =>
    obtain ⟨here, others⟩ := List.forall_mem_cons.mp each
    have occurrences : s.occurrences snapshot t.kind t.domain t.member =
        .ok (snapshot.files.flatMap (s.needlesIn snapshot t)) :=
      occurrences_eq_ok_iff.mpr ⟨here, rfl⟩
    have evidence : ∃ references,
        s.evidence comments snapshot t.kind t.domain t.member = .ok references :=
      ⟨_, Except.bind_eq_ok_iff.mpr ⟨_, occurrences, rfl⟩⟩
    obtain ⟨references, gathered⟩ := evidence
    obtain ⟨out, collected⟩ := ih others _
    exact ⟨out, Except.bind_eq_ok_iff.mpr ⟨references, gathered, collected⟩⟩

/-- With a convention that compiles, every snapshot can be scanned for every schema whose domains
and members have names: nothing that the scan asks for is missing, and it returns a map, whichever
comments were indexed before. -/
theorem extract_succeeds (compiled : c.compile = .ok filters) (tag : String)
    (snapshot : Snapshot) (named : schema.Named) :
    Equipped c filters snapshot schema ∧
      ∀ comments, ∃ found, extract ⟨c, filters, tag⟩ comments snapshot schema = .ok found := by
  have equipped : Equipped c filters snapshot schema := equipped_of_compile compiled named
  refine ⟨equipped, fun comments => ?_⟩
  exact exists_collect (fun t inside => equipped.searchable inside) comments snapshot .empty

/-- Its needles are names with a changed first letter and nothing else. -/
def bareConvention : Convention where
  displayName := "bare"
  repo := { owner := "o", name := "r" }
  scope := {}
  subsets := SortedMap.empty.insert "src" { included := ["src/*"] }
  rules :=
    ⟨some { subset := "src", needles := ["\x7bmemberPascal\x7d"] }, none,
      some { needles := ["\x7bdomainCamel\x7d", "\x7bmember\x7d"] }⟩
  comments := ["src", allFiles]

def sharpSchema : Schema where
  domains := [
    { name := "İ"
      types := some [{ id := "ǰ", shape := .any }]
      commands := some [{ name := "ßen" }, { name := "\x7bdomain\x7d" }] }]

def sharpSnapshot : Snapshot where
  owner := "o"
  repo := "r"
  commit := "c"
  files := [("src/ß.c", "ß // @cdp İ.ßen\n SSen(ǰ)"), ("ß.md", "")]
  distinct := by decide

theorem named_sharpSchema : sharpSchema.Named := by
  intro d declared
  obtain rfl := List.mem_singleton.mp declared
  refine ⟨by decide, fun kind => ?_⟩
  cases kind <;> decide

theorem extract_succeeds_sharp : ∃ filters, bareConvention.compile = .ok filters ∧
    sharpSchema.Named ∧ Equipped bareConvention filters sharpSnapshot sharpSchema ∧
      ∃ found, extract ⟨bareConvention, filters, "@cdp"⟩ .empty sharpSnapshot sharpSchema =
        .ok found := by
  have compiles : bareConvention.compile.toOption.isSome = true := by decide +kernel
  cases compiled : bareConvention.compile with
  | error e =>
    rw [compiled] at compiles
    cases compiles
  | ok filters =>
    obtain ⟨equipped, scanned⟩ :=
      extract_succeeds compiled "@cdp" sharpSnapshot named_sharpSchema
    exact ⟨filters, rfl, named_sharpSchema, equipped, scanned .empty⟩

end Scanner
end SchemaTrace
