import SchemaTrace.Implementation
import SchemaTrace.Proofs.Evidence.Exact
import SchemaTrace.Proofs.Snapshot.Moves
import SchemaTrace.Provider.Memory

/-! Histories of an extractor. Its operations are called in any order, each with the provider as it
is at that moment. The first call that gets past the snapshot fixes what all later ones are
answered from, the comments that are indexed on the way included. -/

namespace SchemaTrace

namespace Scanner

variable {s : Scanner} {comments : Comment.Index} {snapshot : Snapshot}

theorem pattern_of_occurrences_error {kind : MemberKind} {domain member : String} {e : Error}
    (failed : s.occurrences snapshot kind domain member = .error e) :
    ∃ fault, e = .pattern fault := by
  unfold occurrences at failed
  split at failed
  · cases failed
  · next rule _ =>
    unfold filter at failed
    split at failed
    · dsimp only [bind, Except.bind] at failed
      split at failed
      · obtain rfl := Except.error.inj failed
        exact ⟨_, rfl⟩
      · cases failed
    · obtain rfl := Except.error.inj failed
      exact ⟨_, rfl⟩

theorem pattern_of_collect_error {members : List Target} {found : ReferenceMap} {e : Error}
    (failed : s.collect comments snapshot found members = .error e) :
    ∃ fault, e = .pattern fault := by
  induction members generalizing found with
  | nil => cases failed
  | cons t rest ih =>
    simp only [collect, evidence, bind, Except.bind] at failed
    cases occurs : s.occurrences snapshot t.kind t.domain t.member with
    | error e' =>
      rw [occurs] at failed
      obtain rfl := Except.error.inj failed
      exact pattern_of_occurrences_error occurs
    | ok list =>
      rw [occurs] at failed
      exact ih failed

/-- Every reference of an extraction names the snapshot that it was read from. -/
theorem source_of_mem_extract {schema : Schema} {found : ReferenceMap}
    (run : s.extract (s.indexComments snapshot) snapshot schema = .ok found) {kind : MemberKind}
    {name : String} {r : Reference} (listed : r ∈ found.about kind name) :
    ∃ path, r.source = some (snapshot.sourceFile path) := by
  obtain ⟨-, rfl⟩ := extract_eq_ok_iff.mp run
  rw [ReferenceMap.about, get_foldl_enter, ReferenceMap.empty, ByKind.get_fill,
    SortedMap.getD_foldl_append, SortedMap.get?_empty, Option.getD_none, List.nil_append] at listed
  obtain ⟨t, -, evidence⟩ := List.mem_flatMap.mp listed
  obtain ⟨file, -, member | member⟩ := mem_evidenceIn_iff.mp evidence
  · exact ⟨file.1, (isComment_of_mem_commentsIn member).2⟩
  · exact ⟨file.1, (isComment_of_mem_needlesIn member).2⟩

end Scanner

namespace Extractor

inductive Call where
  | snapshot
  | dataSource
  | references (schema : Schema)

inductive Return where
  | snapshot (outcome : Outcome Snapshot)
  | dataSource (outcome : Except Error PinnedRepository)
  | references (outcome : Except Error ReferenceMap)
  deriving DecidableEq

def Return.fetchError? : Return → Option FetchError
  | .snapshot (.error e) => some e
  | .dataSource (.error (.fetch e)) => some e
  | .references (.error (.fetch e)) => some e
  | _ => none

def perform (p : Provider) (x : Extractor) : Call → Return × Extractor
  | .snapshot => (x.snapshot p).map .snapshot id
  | .dataSource => (x.dataSource p).map .dataSource id
  | .references schema => (x.references p schema).map .references id

structure History where
  extractor : Extractor
  returns : List (Call × Return) := []

namespace History

def initial (x : Extractor) : History := { extractor := x }

def step (h : History) (p : Provider) (call : Call) : History :=
  let (returned, x) := h.extractor.perform p call
  ⟨x, (call, returned) :: h.returns⟩

def after (h : History) (calls : List (Provider × Call)) : History :=
  calls.foldl (fun h (p, call) => h.step p call) h

end History

def Holds (x : Extractor) (s : Snapshot) : Prop := x.cache.snapshot = .value s

def Indexed (x : Extractor) : Prop :=
  ∀ comments, x.comments = some comments → ∃ s, x.Holds s ∧ comments = x.scanner.indexComments s

/-- What a call is answered from a snapshot. -/
def answer (scanner : Scanner) (s : Snapshot) : Call → Return
  | .snapshot => .snapshot (.ok s)
  | .dataSource => .dataSource (.ok s.repository)
  | .references schema => .references (scanner.extract (scanner.indexComments s) s schema)

def failure (e : FetchError) : Call → Return
  | .snapshot => .snapshot (.error e)
  | .dataSource => .dataSource (.error (.fetch e))
  | .references _ => .references (.error (.fetch e))

theorem fetchError?_failure (e : FetchError) (call : Call) :
    (failure e call).fetchError? = some e := by
  cases call <;> rfl

theorem fetchError?_answer (scanner : Scanner) (s : Snapshot) (call : Call) :
    (answer scanner s call).fetchError? = none := by
  cases call with
  | snapshot => rfl
  | dataSource => rfl
  | references schema =>
    rw [answer]
    cases extracted : scanner.extract (scanner.indexComments s) s schema with
    | ok found => rfl
    | error e =>
      obtain ⟨fault, rfl⟩ := Scanner.pattern_of_collect_error extracted
      rfl

variable {p : Provider} {x x' : Extractor} {s : Snapshot} {call : Call} {returned : Return}

theorem Holds.unique {s' : Snapshot} (holds : x.Holds s) (holds' : x.Holds s') : s' = s :=
  Kept.value.inj (holds'.symm.trans holds)

theorem snapshot_of_holds (holds : x.Holds s) : x.snapshot p = (.ok s, x) := by
  unfold snapshot
  rw [SnapshotCache.run_getSnapshot_of_held holds]

theorem snapshot_of_missing (missing : ∀ s, ¬x.Holds s) :
    ∃ outcome cache, x.snapshot p = (outcome, { x with cache }) ∧
      cache.snapshot = .ofOutcome outcome := by
  unfold snapshot
  rw [SnapshotCache.run_getSnapshot_of_missing missing]
  exact ⟨_, _, rfl, rfl⟩

/-- What a call can do. It finds a snapshot or gets one, keeps that and answers from it, or it
fails and leaves none. -/
inductive Performs (x : Extractor) (call : Call) : Return → Extractor → Prop
  | failed {e : FetchError} {cache : SnapshotCache} (missing : ∀ s, ¬x.Holds s)
    (failed : cache.snapshot = .error e) : Performs x call (failure e call) { x with cache }
  | passed {s : Snapshot} {x' : Extractor} (kept : ∀ s', x.Holds s' → s' = s) (holds : x'.Holds s)
    (scanner : x'.scanner = x.scanner) (indexed : x'.Indexed) :
    Performs x call (answer x.scanner s call) x'

theorem perform_of_error {e : FetchError} (got : x.snapshot p = (.error e, x')) (call : Call) :
    x.perform p call = (failure e call, x') := by
  cases call with
  | snapshot => rw [perform, got]; rfl
  | dataSource => rw [perform, dataSource, got]; rfl
  | references schema => rw [perform, references, got]; rfl

theorem performs_of_ok (kept : ∀ s', x.Holds s' → s' = s) (holds : x'.Holds s)
    (scanner : x'.scanner = x.scanner) (indexed : x'.Indexed) (got : x.snapshot p = (.ok s, x'))
    (call : Call) : Performs x call (x.perform p call).1 (x.perform p call).2 := by
  cases call with
  | snapshot =>
    have performed : x.perform p .snapshot = (answer x.scanner s .snapshot, x') := by
      rw [perform, got]
      rfl
    rw [performed]
    exact .passed kept holds scanner indexed
  | dataSource =>
    have performed : x.perform p .dataSource = (answer x.scanner s .dataSource, x') := by
      rw [perform, dataSource, got]
      rfl
    rw [performed]
    exact .passed kept holds scanner indexed
  | references schema =>
    have comments : x'.comments.getD (x'.scanner.indexComments s) = x'.scanner.indexComments s := by
      cases held : x'.comments with
      | none => rfl
      | some comments =>
        obtain ⟨s', holds', rfl⟩ := indexed comments held
        obtain rfl := holds.unique holds'
        rfl
    have performed : x.perform p (.references schema) =
        (answer x'.scanner s (.references schema),
          { x' with comments := some (x'.scanner.indexComments s) }) := by
      rw [perform, references, got]
      simp only [comments]
      rfl
    rw [performed, scanner]
    refine .passed kept holds rfl ?_
    intro comments given
    exact ⟨s, holds, (Option.some.inj given).symm⟩

theorem performs (indexed : x.Indexed) (p : Provider) (call : Call) :
    Performs x call (x.perform p call).1 (x.perform p call).2 := by
  by_cases held : ∃ s, x.Holds s
  · obtain ⟨s, holds⟩ := held
    exact performs_of_ok (fun _ => holds.unique) holds rfl indexed (snapshot_of_holds holds) call
  · have missing : ∀ s, ¬x.Holds s := not_exists.mp held
    obtain ⟨outcome, cache, got, kept⟩ := snapshot_of_missing (p := p) missing
    cases outcome with
    | error e =>
      rw [perform_of_error got]
      exact .failed missing kept
    | ok s =>
      -- Nothing was indexed before there was a snapshot.
      have unindexed : Indexed { x with cache } := by
        intro comments given
        obtain ⟨s', holds, -⟩ := indexed comments given
        exact absurd holds (missing s')
      have holds : Holds { x with cache } s := kept
      exact performs_of_ok (fun s' held => absurd held (missing s')) holds rfl unindexed got call

theorem Performs.scanner (performs : Performs x call returned x') : x'.scanner = x.scanner := by
  cases performs with
  | failed => rfl
  | passed _ _ scanner => exact scanner

theorem Performs.indexed (performs : Performs x call returned x') (indexed : x.Indexed) :
    x'.Indexed := by
  cases performs with
  | failed missing =>
    intro comments given
    obtain ⟨s, holds, -⟩ := indexed comments given
    exact absurd holds (missing s)
  | passed _ _ _ indexed' => exact indexed'

theorem Performs.holds (performs : Performs x call returned x') (holds : x.Holds s) :
    x'.Holds s := by
  cases performs with
  | failed missing => exact absurd holds (missing s)
  | passed kept holds' => exact kept s holds ▸ holds'

theorem Performs.answered (performs : Performs x call returned x')
    (passed : returned.fetchError? = none) :
    ∃ s, x'.Holds s ∧ returned = answer x.scanner s call := by
  cases performs with
  | failed =>
    rw [fetchError?_failure] at passed
    cases passed
  | passed _ holds => exact ⟨_, holds, rfl⟩

theorem Performs.passed_of_holds (performs : Performs x call returned x') (holds : x.Holds s) :
    returned.fetchError? = none := by
  cases performs with
  | failed missing => exact absurd holds (missing s)
  | passed => exact fetchError?_answer _ _ _

namespace History

variable {h : History} {scanner : Scanner}

structure Sound (scanner : Scanner) (h : History) : Prop where
  sameScanner : h.extractor.scanner = scanner
  indexed : h.extractor.Indexed
  answered : ∀ call returned, (call, returned) ∈ h.returns → returned.fetchError? = none →
    ∃ s, h.extractor.Holds s ∧ returned = answer scanner s call
  /-- After a call that got past the snapshot no call fails to. -/
  passed : h.returns.Pairwise fun later earlier =>
    earlier.2.fetchError? = none → later.2.fetchError? = none

theorem Sound.step (sound : Sound scanner h) (p : Provider) (call : Call) :
    Sound scanner (h.step p call) := by
  have performed := performs sound.indexed p call
  obtain rfl := sound.sameScanner
  refine ⟨performed.scanner, performed.indexed sound.indexed, ?_, .cons ?_ sound.passed⟩
  · intro call' returned member passed
    rcases List.mem_cons.mp member with same | earlier
    · obtain ⟨rfl, rfl⟩ := Prod.mk.inj same
      exact performed.answered passed
    · obtain ⟨s, holds, eq⟩ := sound.answered call' returned earlier passed
      exact ⟨s, performed.holds holds, eq⟩
  · intro earlier member passed
    obtain ⟨s, holds, -⟩ := sound.answered earlier.1 earlier.2 member passed
    exact performed.passed_of_holds holds

theorem Sound.after (sound : Sound scanner h) (calls : List (Provider × Call)) :
    Sound scanner (h.after calls) := by
  unfold History.after
  induction calls generalizing h with
  | nil => exact sound
  | cons call rest ih => exact ih (sound.step call.1 call.2)

/-- All calls of a history that got past the snapshot agree. -/
structure OneAnswer (h : History) : Prop where
  /-- After a call that got past the snapshot no call fails to fetch. -/
  fetched : h.returns.Pairwise fun later earlier =>
    earlier.2.fetchError? = none → later.2.fetchError? = none
  references : ∀ schema found found', (.references schema, .references (.ok found)) ∈ h.returns →
    (.references schema, .references (.ok found')) ∈ h.returns → found = found'
  /-- The references come from the repository, at the commit, that is reported as their source. -/
  sources : ∀ schema found repository, (.references schema, .references (.ok found)) ∈ h.returns →
    (.dataSource, .dataSource (.ok repository)) ∈ h.returns →
      ∀ kind name, ∀ r ∈ found.about kind name, ∃ file, r.source = some file ∧
        (⟨file.owner, file.repo, file.commit⟩ : PinnedRepository) = repository

theorem Sound.oneAnswer (sound : Sound scanner h) : OneAnswer h where
  fetched := sound.passed
  references schema found found' member member' := by
    obtain ⟨s, holds, eq⟩ := sound.answered _ _ member rfl
    obtain ⟨s', holds', eq'⟩ := sound.answered _ _ member' rfl
    obtain rfl := holds.unique holds'
    exact Except.ok.inj (Return.references.inj (eq.trans eq'.symm))
  sources schema found repository member member' kind name r listed := by
    obtain ⟨s, holds, eq⟩ := sound.answered _ _ member rfl
    obtain ⟨s', holds', eq'⟩ := sound.answered _ _ member' rfl
    obtain rfl := holds.unique holds'
    obtain rfl := Except.ok.inj (Return.dataSource.inj eq')
    obtain ⟨path, source⟩ :=
      Scanner.source_of_mem_extract (Return.references.inj eq).symm listed
    exact ⟨_, source, rfl⟩

theorem sound_ofConvention {convention : Convention} {tag : String} {x : Extractor}
    (built : ofConvention convention tag = .ok x) : Sound x.scanner (initial x) where
  sameScanner := rfl
  indexed comments given := by
    obtain ⟨scanner, -, made⟩ := Except.bind_eq_ok_iff.mp built
    obtain rfl := Except.ok.inj made
    cases given
  answered call returned member := by cases member
  passed := .nil

/-- Whatever a provider answers, and however that changes from call to call, an extractor gives one
answer from the first call on that gets past the snapshot. -/
theorem after_one_answer {convention : Convention} {tag : String} {x : Extractor}
    (built : ofConvention convention tag = .ok x) (calls : List (Provider × Call)) :
    OneAnswer ((initial x).after calls) :=
  ((sound_ofConvention built).after calls).oneAnswer

def agentConvention : Convention :=
  { Scanner.agentConvention with scope := { roots := ["src"], files := ["notes.md"] } }

/-- The branch and a file cannot be fetched at first; later the branch moves on to other files and
goes away. -/
def movingCalls : List (Provider × Call) :=
  let early : MemoryProvider := { commit := "c", files := .ofList Scanner.agentSnapshot.files }
  let late : MemoryProvider := { commit := "d", files := .ofList [("src/agent.c", "go")] }
  [((early.breakTarget "head" "offline").provider, .references Scanner.agentSchema),
    ((early.breakTarget "file:notes.md" "offline").provider, .dataSource),
    (early.provider, .references Scanner.agentSchema), (late.provider, .dataSource),
    (late.provider, .references Scanner.agentSchema),
    ((late.breakTarget "head" "offline").provider, .snapshot)]

def movingReturns : List Return :=
  [.snapshot (.ok Scanner.agentSnapshot), .references (.ok Scanner.agentReferences),
    .dataSource (.ok ⟨"o", "r", "c"⟩), .references (.ok Scanner.agentReferences),
    .dataSource (.error (.fetch ⟨"file:notes.md", "offline"⟩)),
    .references (.error (.fetch ⟨"head", "offline"⟩))]

theorem after_one_answer_movingCalls : ∃ x, ofConvention agentConvention "@cdp" = .ok x ∧
    ((initial x).after movingCalls).returns.map Prod.snd = movingReturns ∧
    OneAnswer ((initial x).after movingCalls) := by
  have run : ((ofConvention agentConvention "@cdp").map fun x =>
      ((initial x).after movingCalls).returns.map Prod.snd) = .ok movingReturns := by
    decide +kernel
  cases built : ofConvention agentConvention "@cdp" with
  | error e =>
    rw [built] at run
    cases run
  | ok x =>
    rw [built] at run
    exact ⟨x, rfl, Except.ok.inj run, after_one_answer built movingCalls⟩

end History
end Extractor
end SchemaTrace
