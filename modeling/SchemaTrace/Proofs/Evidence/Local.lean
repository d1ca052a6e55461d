import SchemaTrace.Proofs.Evidence.Exact
import Mathlib.Data.List.Flatten

/-! Extraction is local. The evidence for a member depends on the member and on each file alone:
not on the other members of the schema, and on other files only through the order of the files. -/

namespace SchemaTrace

namespace Snapshot

structure Joins (first second whole : Snapshot) : Prop where
  repository : first.repository = whole.repository
  repository' : second.repository = whole.repository
  files : whole.files = first.files ++ second.files

structure Extends (larger smaller : Snapshot) : Prop where
  repository : smaller.repository = larger.repository
  files : smaller.files.Sublist larger.files

/-- Two snapshots that differ at one place, and there only in files of a given kind. -/
structure DiffersIn (changed : String × String → Prop) (old new : Snapshot) : Prop where
  repository : old.repository = new.repository
  files : ∃ before removed added after, old.files = before ++ removed ++ after ∧
    new.files = before ++ added ++ after ∧ ∀ file ∈ removed ++ added, changed file

theorem sourceFile_congr {a b : Snapshot} (same : a.repository = b.repository) (path : String) :
    a.sourceFile path = b.sourceFile path := by
  obtain ⟨owner, repo, commit⟩ := PinnedRepository.mk.inj same
  unfold sourceFile
  rw [owner, repo, commit]

end Snapshot

/-- Of two lists of references one is the other's comments and its own, then the occurrences in the
same way. -/
structure Reference.Merges (first second whole : List Reference) : Prop where
  comments : whole.filter (fun r => r.isComment) =
    first.filter (fun r => r.isComment) ++ second.filter (fun r => r.isComment)
  occurrences : whole.filter (fun r => !r.isComment) =
    first.filter (fun r => !r.isComment) ++ second.filter (fun r => !r.isComment)

namespace Scanner

def Finds (s : Scanner) (snapshot : Snapshot) (schema : Schema) (found : ReferenceMap) : Prop :=
  s.extract (s.indexComments snapshot) snapshot schema = .ok found

def Lists (found : ReferenceMap) (t : Target) (references : List Reference) : Prop :=
  (found.get t.kind).get? t.key = some references

/-- A file that neither a rule nor the index of comments of a convention looks at. -/
def Ignores (c : Convention) (file : String × String) : Prop :=
  ∀ subset ∈ c.referredSubsets, ¬c.Covers subset file.1

variable {s : Scanner} {a b snapshot : Snapshot} {t : Target} {schema : Schema}
  {found : ReferenceMap}

theorem commentsIn_congr (same : a.repository = b.repository) (key : String) :
    s.commentsIn a key = s.commentsIn b key := by
  funext file
  unfold commentsIn
  rw [Snapshot.sourceFile_congr same]

theorem needlesIn_congr (same : a.repository = b.repository) (t : Target) :
    s.needlesIn a t = s.needlesIn b t := by
  funext file
  unfold needlesIn occurrencesIn
  rw [Snapshot.sourceFile_congr same]

/-- Whether an extraction succeeds does not depend on the snapshot. -/
theorem Finds.of_searchable (run : s.Finds a schema found) (b : Snapshot) :
    s.Finds b schema ((targets schema).foldl (s.enter b) .empty) :=
  extract_eq_ok_iff.mpr ⟨(extract_eq_ok_iff.mp run).1, rfl⟩

theorem Finds.lists {model : Model} (run : s.Finds snapshot schema found)
    (accepted : Model.ofSchema schema = .ok model) (declared : t ∈ targets schema) :
    Lists found t (s.evidenceIn snapshot t) :=
  get?_extract accepted run declared

theorem evidenceIn_merges {first second whole : Snapshot} (joins : first.Joins second whole)
    (t : Target) : Reference.Merges (s.evidenceIn first t) (s.evidenceIn second t)
      (s.evidenceIn whole t) := by
  constructor
  · simp only [(filter_evidenceIn _ _ _).1, joins.files, List.flatMap_append,
      commentsIn_congr joins.repository, commentsIn_congr joins.repository']
  · simp only [(filter_evidenceIn _ _ _).2, joins.files, List.flatMap_append,
      needlesIn_congr joins.repository, needlesIn_congr joins.repository']

theorem evidenceIn_sublist {larger smaller : Snapshot} (added : larger.Extends smaller)
    (t : Target) : (s.evidenceIn smaller t).Sublist (s.evidenceIn larger t) := by
  unfold evidenceIn
  rw [commentsIn_congr added.repository, needlesIn_congr added.repository]
  apply List.Sublist.append
  · exact added.files.flatMap _
  · exact added.files.flatMap _

variable {c : Convention} {filters : SortedMap PathFilter} {tag : String}

theorem evidenceIn_nil_of_ignores (compiled : c.compile = .ok filters) {file : String × String}
    (ignored : Ignores c file) (snapshot : Snapshot) (t : Target) :
    commentsIn ⟨c, filters, tag⟩ snapshot t.key file = [] ∧
      needlesIn ⟨c, filters, tag⟩ snapshot t file = [] := by
  constructor
  · apply List.eq_nil_iff_forall_not_mem.mpr
    intro r member
    obtain ⟨⟨subset, indexed, covers⟩, -⟩ := (mem_commentsIn_iff compiled).mp member
    exact ignored subset (List.mem_append_right _ indexed) covers
  · apply List.eq_nil_iff_forall_not_mem.mpr
    intro r member
    obtain ⟨rule, filter, matcher, searches, admits, -⟩ := mem_needlesIn_iff.mp member
    have every : t.kind ∈ MemberKind.all := by cases t.kind <;> decide
    have referred : rule.subset ∈ c.referredSubsets := by
      apply List.mem_append_left
      apply List.mem_filterMap.mpr
      refine ⟨t.kind, every, ?_⟩
      rw [searches.ruled, Option.map_some]
    exact ignored rule.subset referred
      ((Convention.covers_iff compiled).mpr ⟨filter, searches.filtered, admits⟩)

theorem evidenceIn_eq_of_ignores (compiled : c.compile = .ok filters) {old new : Snapshot}
    (differs : old.DiffersIn (Ignores c) new) (t : Target) :
    evidenceIn ⟨c, filters, tag⟩ new t = evidenceIn ⟨c, filters, tag⟩ old t := by
  obtain ⟨before, removed, added, after, eqOld, eqNew, ignored⟩ := differs.files
  have nothing (files : List (String × String)) (inside : ∀ file ∈ files, Ignores c file) :
      files.flatMap (commentsIn ⟨c, filters, tag⟩ new t.key) = [] ∧
        files.flatMap (needlesIn ⟨c, filters, tag⟩ new t) = [] := by
    constructor
    · exact List.flatMap_eq_nil_iff.mpr fun file member =>
        (evidenceIn_nil_of_ignores compiled (inside file member) new t).1
    · exact List.flatMap_eq_nil_iff.mpr fun file member =>
        (evidenceIn_nil_of_ignores compiled (inside file member) new t).2
  obtain ⟨removedComments, removedNeedles⟩ :=
    nothing removed fun file member => ignored file (List.mem_append_left _ member)
  obtain ⟨addedComments, addedNeedles⟩ :=
    nothing added fun file member => ignored file (List.mem_append_right _ member)
  unfold evidenceIn
  rw [commentsIn_congr differs.repository, needlesIn_congr differs.repository, eqOld, eqNew]
  simp only [List.flatMap_append, removedComments, removedNeedles, addedComments, addedNeedles]

/-- Evidence depends on the member and on each file alone. Another schema that declares the member
gets the same list. The list over two groups of files is made of the lists over each. A file that
is added removes and reorders nothing. Files that the convention does not look at change nothing. -/
theorem extract_local (compiled : c.compile = .ok filters) {model : Model}
    (accepted : Model.ofSchema schema = .ok model)
    (run : Finds ⟨c, filters, tag⟩ snapshot schema found) :
    (∀ other model' found', Model.ofSchema other = .ok model' →
      Finds ⟨c, filters, tag⟩ snapshot other found' →
        ∀ t ∈ targets schema, t ∈ targets other →
          ∃ references, Lists found t references ∧ Lists found' t references) ∧
    (∀ first second, first.Joins second snapshot → ∃ found₁ found₂,
      Finds ⟨c, filters, tag⟩ first schema found₁ ∧ Finds ⟨c, filters, tag⟩ second schema found₂ ∧
        ∀ t ∈ targets schema, ∃ references₁ references₂ references,
          Lists found₁ t references₁ ∧ Lists found₂ t references₂ ∧ Lists found t references ∧
            Reference.Merges references₁ references₂ references) ∧
    (∀ larger, larger.Extends snapshot → ∃ found', Finds ⟨c, filters, tag⟩ larger schema found' ∧
      ∀ t ∈ targets schema, ∃ references references',
        Lists found t references ∧ Lists found' t references' ∧ references.Sublist references') ∧
    ∀ changed, snapshot.DiffersIn (Ignores c) changed →
      Finds ⟨c, filters, tag⟩ changed schema found := by
  refine ⟨?_, ?_, ?_, ?_⟩
  · intro other model' found' accepted' run' t declared declared'
    exact ⟨_, run.lists accepted declared, run'.lists accepted' declared'⟩
  · intro first second joins
    have run₁ := run.of_searchable first
    have run₂ := run.of_searchable second
    refine ⟨_, _, run₁, run₂, ?_⟩
    intro t declared
    exact ⟨_, _, _, run₁.lists accepted declared, run₂.lists accepted declared,
      run.lists accepted declared, evidenceIn_merges joins t⟩
  · intro larger added
    have run' := run.of_searchable larger
    refine ⟨_, run', ?_⟩
    intro t declared
    exact ⟨_, _, run.lists accepted declared, run'.lists accepted declared,
      evidenceIn_sublist added t⟩
  · intro changed differs
    have same : enter ⟨c, filters, tag⟩ changed = enter ⟨c, filters, tag⟩ snapshot := by
      funext found t
      unfold enter
      rw [evidenceIn_eq_of_ignores compiled differs t]
    obtain ⟨searchable, eq⟩ := extract_eq_ok_iff.mp run
    rw [← same] at eq
    exact extract_eq_ok_iff.mpr ⟨searchable, eq⟩

def sourceConvention : Convention := { agentConvention with comments := ["src"] }

def widerSchema : Schema where
  domains := [{ name := "B", types := some [{ id := "T", shape := .string none }] },
    { name := "A", events := some [{ name := "go" }], commands := some [{ name := "go" }] }]

def sourceEvidence : List Reference := agentEvidence.eraseIdx 1

def sourceReferences : ReferenceMap where
  commands := .ofList [("A.go", sourceEvidence), ("A.stop", [])]
  events := .empty
  types := .empty

/-- The comment does not say of which kind the member is that it names. -/
def widerReferences : ReferenceMap where
  commands := .ofList [("A.go", sourceEvidence)]
  events := .ofList [("A.go", sourceEvidence.take 1)]
  types := .ofList [("B.T", [])]

def agentFiles (files : List (String × String))
    (distinct : (files.map Prod.fst).Nodup := by decide) : Snapshot :=
  { agentSnapshot with files, distinct }

theorem finds_agentSnapshot : ∃ filters, sourceConvention.compile = .ok filters ∧
    Finds ⟨sourceConvention, filters, "@cdp"⟩ agentSnapshot agentSchema sourceReferences ∧
    Finds ⟨sourceConvention, filters, "@cdp"⟩ agentSnapshot widerSchema widerReferences := by
  have first : (sourceConvention.compile.bind fun filters =>
      extract ⟨sourceConvention, filters, "@cdp"⟩
        (indexComments ⟨sourceConvention, filters, "@cdp"⟩ agentSnapshot) agentSnapshot
        agentSchema) = .ok sourceReferences := by
    decide +kernel
  have second : (sourceConvention.compile.bind fun filters =>
      extract ⟨sourceConvention, filters, "@cdp"⟩
        (indexComments ⟨sourceConvention, filters, "@cdp"⟩ agentSnapshot) agentSnapshot
        widerSchema) = .ok widerReferences := by
    decide +kernel
  obtain ⟨filters, compiled, run⟩ := Except.bind_eq_ok_iff.mp first
  obtain ⟨filters', compiled', run'⟩ := Except.bind_eq_ok_iff.mp second
  obtain rfl := Except.ok.inj (compiled.symm.trans compiled')
  exact ⟨filters, compiled, run, run'⟩

theorem exists_model_widerSchema : ∃ model, Model.ofSchema widerSchema = .ok model := ⟨_, rfl⟩

theorem ignores_notes (content : String) : Ignores sourceConvention ("notes.md", content) := by
  intro subset referred covers
  have named : subset = "src" := by
    have referredTo : sourceConvention.referredSubsets = ["src", "src"] := by decide
    rw [referredTo] at referred
    simpa using referred
  subst named
  obtain ⟨filter, built, admits⟩ := covers
  have refused : (PathFilter.ofPatterns ["src/*"] []).map (·.admits "notes.md") = .ok false := by
    decide +kernel
  rw [built] at refused
  exact Bool.false_ne_true ((Except.ok.inj refused).symm.trans admits)

/-- The first command in the agent's snapshot: declared in another schema, in its two files one by
one, with a file added before them, and with other notes. -/
theorem extract_local_agent : ∃ filters, sourceConvention.compile = .ok filters ∧
    (∃ references, Lists sourceReferences ⟨.command, "A", "go"⟩ references ∧
      Lists widerReferences ⟨.command, "A", "go"⟩ references) ∧
    (∃ found₁ found₂,
      Finds ⟨sourceConvention, filters, "@cdp"⟩ (agentFiles (agentSnapshot.files.take 1))
        agentSchema found₁ ∧
      Finds ⟨sourceConvention, filters, "@cdp"⟩ (agentFiles (agentSnapshot.files.drop 1))
        agentSchema found₂ ∧
      ∃ references₁ references₂ references, Lists found₁ ⟨.command, "A", "go"⟩ references₁ ∧
        Lists found₂ ⟨.command, "A", "go"⟩ references₂ ∧
        Lists sourceReferences ⟨.command, "A", "go"⟩ references ∧
        Reference.Merges references₁ references₂ references) ∧
    (∃ found', Finds ⟨sourceConvention, filters, "@cdp"⟩
        (agentFiles (("src/new.c", "go") :: agentSnapshot.files)) agentSchema found' ∧
      ∃ references references', Lists sourceReferences ⟨.command, "A", "go"⟩ references ∧
        Lists found' ⟨.command, "A", "go"⟩ references' ∧ references.Sublist references') ∧
    Finds ⟨sourceConvention, filters, "@cdp"⟩
      (agentFiles (agentSnapshot.files.take 1 ++ [("notes.md", "m::go")])) agentSchema
      sourceReferences := by
  obtain ⟨filters, compiled, run, wider⟩ := finds_agentSnapshot
  obtain ⟨model, accepted⟩ := exists_model_agentSchema
  obtain ⟨model', accepted'⟩ := exists_model_widerSchema
  obtain ⟨shared, joined, extended, changed⟩ := extract_local compiled accepted run
  have declared : ⟨.command, "A", "go"⟩ ∈ targets agentSchema := by decide
  have declared' : ⟨.command, "A", "go"⟩ ∈ targets widerSchema := by decide
  have joins : (agentFiles (agentSnapshot.files.take 1)).Joins
      (agentFiles (agentSnapshot.files.drop 1)) agentSnapshot := ⟨rfl, rfl, rfl⟩
  have grown : (agentFiles (("src/new.c", "go") :: agentSnapshot.files)).Extends
      agentSnapshot := ⟨rfl, List.sublist_cons_self _ _⟩
  have differs : agentSnapshot.DiffersIn (Ignores sourceConvention)
      (agentFiles (agentSnapshot.files.take 1 ++ [("notes.md", "m::go")])) := by
    refine ⟨rfl, agentSnapshot.files.take 1, agentSnapshot.files.drop 1, [("notes.md", "m::go")],
      [], rfl, rfl, ?_⟩
    intro file member
    rcases List.mem_pair.mp member with rfl | rfl
    · exact ignores_notes _
    · exact ignores_notes _
  obtain ⟨found₁, found₂, run₁, run₂, merged⟩ := joined _ _ joins
  obtain ⟨found', run', kept⟩ := extended _ grown
  exact ⟨filters, compiled, shared _ _ _ accepted' wider _ declared declared',
    ⟨found₁, found₂, run₁, run₂, merged _ declared⟩, ⟨found', run', kept _ declared⟩,
    changed _ differs⟩

end Scanner
end SchemaTrace
