import SchemaTrace.Proofs.Configuration.Merging
import SchemaTrace.Proofs.Except

/-! Validation accepts exactly the configurations that can be followed: distinct ids, one known
source for each entry, merges of configured entries, and no entry that leads back to itself. The
search for the last may pass an entry many times; it only fails where it comes back to an entry it
stands below. -/

namespace SchemaTrace

open Relation (ReflTransGen TransGen)

namespace ConfiguredEntry

def HasOneSource (e : ConfiguredEntry) : Prop :=
  [e.preset.isSome, e.convention.isSome, e.merge.isSome].count true = 1

theorem isSome_find?_preset_iff {name : String} :
    (Preset.find? name).isSome = true ↔ name ∈ Preset.names := by
  simp only [Preset.find?, Preset.names, List.mem_cons, List.not_mem_nil, or_false]
  split
  · simp_all
  · split
    · simp_all
    · split <;> simp_all

theorem exists_source_iff {e : ConfiguredEntry} :
    (∃ source, e.source = .ok source) ↔
      e.HasOneSource ∧ ∀ name, e.preset = some name → name ∈ Preset.names := by
  rcases e with ⟨id, preset, convention, merge, checkout⟩
  cases preset with
  | none => cases convention <;> cases merge <;> simp [source, HasOneSource]
  | some name =>
    cases convention <;> cases merge <;> simp [source, HasOneSource]
    rw [← isSome_find?_preset_iff]
    cases Preset.find? name <;> simp

theorem source_eq_merge_iff {e : ConfiguredEntry} {members : List String} :
    e.source = .ok (.merge members) ↔
      e.preset = none ∧ e.convention = none ∧ e.merge = some members := by
  rcases e with ⟨id, preset, convention, merge, checkout⟩
  cases preset with
  | none => cases convention <;> cases merge <;> simp [source]
  | some name =>
    cases convention <;> cases merge <;> simp [source]
    cases Preset.find? name <;> simp

end ConfiguredEntry

namespace Configuration

structure WellFormed (c : Configuration) : Prop where
  distinct : c.ids.Nodup
  oneSource : ∀ e ∈ c.entries, e.HasOneSource
  builtIn : ∀ e ∈ c.entries, ∀ name, e.preset = some name → name ∈ Preset.names
  configured : ∀ id member, c.Merges id member → member ∈ c.ids

structure Valid (c : Configuration) : Prop extends WellFormed c where
  acyclic : c.Acyclic

/-- From an entry neither an id on the way to it nor a cycle is reached. -/
def Clear (c : Configuration) (above : List String) (id : String) : Prop :=
  ∀ other, ReflTransGen c.Merges id other → other ∉ above ∧ ¬TransGen c.Merges other other

variable {c : Configuration} {above : List String} {id : String} {e : ConfiguredEntry}

theorem Clear.fresh (clear : c.Clear above id) : id ∉ above := (clear id .refl).1

theorem clear_iff (fresh : id ∉ above) :
    c.Clear above id ↔ ∀ member, c.Merges id member → c.Clear (above ++ [id]) member := by
  constructor
  · intro clear member merges other path
    have here := clear other (.head merges path)
    refine ⟨?_, here.2⟩
    intro onTheWay
    rcases List.mem_append.mp onTheWay with earlier | last
    · exact here.1 earlier
    · rw [List.mem_singleton.mp last] at path
      exact (clear id .refl).2 (.head' merges path)
  · intro clear other path
    rcases ReflTransGen.cases_head path with rfl | ⟨member, merges, rest⟩
    · refine ⟨fresh, ?_⟩
      intro cycle
      rcases TransGen.head'_iff.mp cycle with ⟨member, merges, rest⟩
      exact (clear member merges id rest).1 (List.mem_append_right _ List.mem_cons_self)
    · have here := clear member merges other rest
      exact ⟨fun earlier => here.1 (List.mem_append_left _ earlier), here.2⟩

theorem checkAll_eq_ok_iff {ids : List String} :
    c.checkAll above ids = .ok () ↔ ∀ id ∈ ids, c.checkFrom above id = .ok () := by
  induction ids with
  | nil => simp [checkAll]
  | cons id rest ih => simp [checkAll, Except.check_bind_eq_ok_iff, ih]

/-- The search below an entry succeeds if and only if nothing on the way to it is met again. -/
theorem checkFrom_eq_ok_iff (distinct : c.ids.Nodup) (above : List String) (id : String) :
    c.checkFrom above id = .ok () ↔ c.Clear above id := by
  rw [checkFrom]
  split
  · next inside =>
    constructor
    · intro ok
      cases ok
    · intro clear
      exact absurd inside clear.fresh
  · next fresh =>
    rw [clear_iff fresh]
    split
    · next missing =>
      constructor
      · intro _ member merges
        rcases exists_find?_of_mem_ids (mem_ids_of_merges merges) with ⟨e, found⟩
        rw [missing] at found
        cases found
      · intro _
        rfl
    · next e found =>
      simp only [checkAll_eq_ok_iff, merges_iff distinct found]
      constructor
      · intro each member listed
        exact (checkFrom_eq_ok_iff distinct (above ++ [id]) member).mp (each member listed)
      · intro clear member listed
        exact (checkFrom_eq_ok_iff distinct (above ++ [id]) member).mpr (clear member listed)
termination_by (c.remaining above).length
decreasing_by all_goals exact remaining_lt ‹_› ‹_›

def Reports (c : Configuration) (error : ConfigurationError) : Prop :=
  ∃ id path, error = .mergesItself id path ∧ TransGen c.Merges id id

theorem reports_of_checkAll_error {error : ConfigurationError} {ids : List String}
    (each : ∀ id ∈ ids, c.checkFrom above id = .error error → c.Reports error)
    (failed : c.checkAll above ids = .error error) : c.Reports error := by
  induction ids with
  | nil => simp [checkAll] at failed
  | cons id rest ih =>
    rw [checkAll, Except.bind_eq_error_iff] at failed
    rcases failed with first | ⟨_, -, later⟩
    · exact each id List.mem_cons_self first
    · exact ih (fun other member => each other (List.mem_cons_of_mem id member)) later

theorem reports_of_checkFrom_error (distinct : c.ids.Nodup) {error : ConfigurationError}
    (above : List String) (id : String) (way : ∀ other ∈ above, TransGen c.Merges other id)
    (failed : c.checkFrom above id = .error error) : c.Reports error := by
  rw [checkFrom] at failed
  split at failed
  · next inside => exact ⟨id, above, (Except.error.inj failed).symm, way id inside⟩
  · next fresh =>
    split at failed
    · cases failed
    · next e found =>
      apply reports_of_checkAll_error _ failed
      intro member listed
      have merges := (merges_iff distinct found).mpr listed
      apply reports_of_checkFrom_error distinct (above ++ [id]) member
      intro other onTheWay
      rcases List.mem_append.mp onTheWay with earlier | last
      · exact (way other earlier).tail merges
      · rw [List.mem_singleton.mp last]
        exact .single merges
termination_by (c.remaining above).length
decreasing_by exact remaining_lt ‹_› ‹_›

theorem checkDistinct_eq_ok_iff {seen : List String} {entries : List ConfiguredEntry} :
    checkDistinct seen entries = .ok () ↔
      (entries.map (·.id)).Nodup ∧ ∀ e ∈ entries, e.id ∉ seen := by
  induction entries generalizing seen with
  | nil => simp [checkDistinct]
  | cons e rest ih =>
    rw [checkDistinct]
    split
    · next old => simp [old]
    · next new =>
      rw [ih]
      simp only [List.map_cons, List.nodup_cons, List.mem_cons, List.mem_map, not_or, not_exists,
        not_and, forall_eq_or_imp]
      constructor
      · rintro ⟨nodup, apart⟩
        exact ⟨⟨fun other member => (apart other member).1, nodup⟩, new,
          fun other member => (apart other member).2⟩
      · rintro ⟨⟨apart, nodup⟩, -, others⟩
        exact ⟨nodup, fun other member => ⟨apart other member, others other member⟩⟩

theorem checkMembers_eq_ok_iff {members : List String} :
    c.checkMembers id members = .ok () ↔ ∀ member ∈ members, member ∈ c.ids := by
  induction members with
  | nil => simp [checkMembers]
  | cons member rest ih =>
    rw [checkMembers]
    split
    · next configured => simp [ih, configured]
    · next missing => simp [missing]

theorem checkSources_eq_ok_iff {entries : List ConfiguredEntry} :
    c.checkSources entries = .ok () ↔ ∀ e ∈ entries, (∃ source, e.source = .ok source) ∧
      ∀ members, e.source = .ok (.merge members) → ∀ member ∈ members, member ∈ c.ids := by
  induction entries with
  | nil => simp [checkSources]
  | cons e rest ih =>
    rw [checkSources, Except.bind_eq_ok_iff, List.forall_mem_cons, ← ih]
    constructor
    · rintro ⟨source, found, checked⟩
      cases source with
      | convention convention => exact ⟨⟨⟨_, found⟩, by simp [found]⟩, checked⟩
      | merge members =>
        rcases Except.check_bind_eq_ok_iff.mp checked with ⟨all, checked⟩
        refine ⟨⟨⟨_, found⟩, ?_⟩, checked⟩
        intro others same
        obtain rfl := Source.merge.inj (Except.ok.inj (found.symm.trans same))
        exact checkMembers_eq_ok_iff.mp all
    · rintro ⟨⟨⟨source, found⟩, all⟩, checked⟩
      refine ⟨source, found, ?_⟩
      cases source with
      | convention convention => exact checked
      | merge members =>
        exact Except.check_bind_eq_ok_iff.mpr
          ⟨checkMembers_eq_ok_iff.mpr (all members found), checked⟩

theorem wellFormed_iff : c.WellFormed ↔
    checkDistinct [] c.entries = .ok () ∧ c.checkSources c.entries = .ok () := by
  rw [checkDistinct_eq_ok_iff, checkSources_eq_ok_iff]
  constructor
  · intro wellFormed
    refine ⟨⟨wellFormed.distinct, fun e _ => List.not_mem_nil⟩, fun e inside => ⟨?_, ?_⟩⟩
    · exact ConfiguredEntry.exists_source_iff.mpr
        ⟨wellFormed.oneSource e inside, wellFormed.builtIn e inside⟩
    · intro members source member listed
      have merge := (ConfiguredEntry.source_eq_merge_iff.mp source).2.2
      exact wellFormed.configured e.id member ⟨e, inside, rfl, members, merge, listed⟩
  · rintro ⟨⟨distinct, -⟩, sources⟩
    have one (e : ConfiguredEntry) (inside : e ∈ c.entries) :=
      ConfiguredEntry.exists_source_iff.mp (sources e inside).1
    refine ⟨distinct, fun e inside => (one e inside).1, fun e inside => (one e inside).2, ?_⟩
    rintro id member ⟨e, inside, rfl, members, merge, listed⟩
    have alone : e.preset = none ∧ e.convention = none := by
      have single := (one e inside).1
      rw [ConfiguredEntry.HasOneSource, merge] at single
      cases preset : e.preset <;> cases convention : e.convention <;>
        simp [preset, convention] at single ⊢
    exact (sources e inside).2 members
      (ConfiguredEntry.source_eq_merge_iff.mpr ⟨alone.1, alone.2, merge⟩) member listed

/-- From no configured entry a cycle is reached if and only if there is none. -/
theorem checkAll_ids_eq_ok_iff (distinct : c.ids.Nodup) :
    c.checkAll [] c.ids = .ok () ↔ c.Acyclic := by
  simp only [checkAll_eq_ok_iff, checkFrom_eq_ok_iff distinct]
  constructor
  · intro clear id cycle
    rcases TransGen.head'_iff.mp cycle with ⟨member, merges, -⟩
    exact (clear id (mem_ids_of_merges merges) id .refl).2 cycle
  · intro acyclic id _ other _
    exact ⟨List.not_mem_nil, acyclic other⟩

theorem validate_eq_ok_iff : c.validate = .ok () ↔ c.WellFormed ∧ c.Acyclic := by
  have split : c.validate = .ok () ↔ checkDistinct [] c.entries = .ok () ∧
      c.checkSources c.entries = .ok () ∧ c.checkAll [] c.ids = .ok () := by
    simp [validate, Except.check_bind_eq_ok_iff]
  rw [split, ← and_assoc, ← wellFormed_iff, and_congr_right_iff]
  intro wellFormed
  exact checkAll_ids_eq_ok_iff wellFormed.distinct

theorem validate_of_wellFormed (wellFormed : c.WellFormed) :
    c.validate = c.checkAll [] c.ids := by
  have checked := wellFormed_iff.mp wellFormed
  rw [validate, checked.1, checked.2]
  rfl

theorem Valid.of_validate (accepted : c.validate = .ok ()) : c.Valid :=
  ⟨(validate_eq_ok_iff.mp accepted).1, (validate_eq_ok_iff.mp accepted).2⟩

theorem reports_of_validate_error (wellFormed : c.WellFormed) {error : ConfigurationError}
    (failed : c.validate = .error error) : c.Reports error := by
  rw [validate_of_wellFormed wellFormed] at failed
  apply reports_of_checkAll_error _ failed
  intro id _
  apply reports_of_checkFrom_error wellFormed.distinct
  intro other onTheWay
  cases onTheWay

/-- Validation accepts the valid configurations and no others. Of one that is wrong only in that
some entry leads back to itself it reports such an entry. -/
theorem validate_exact (c : Configuration) :
    (c.validate = .ok () ↔ c.Valid) ∧
      (c.WellFormed → ¬c.Acyclic → ∃ error, c.validate = .error error ∧ c.Reports error) := by
  constructor
  · rw [validate_eq_ok_iff]
    constructor
    · rintro ⟨wellFormed, acyclic⟩
      exact ⟨wellFormed, acyclic⟩
    · intro valid
      exact ⟨valid.toWellFormed, valid.acyclic⟩
  · intro wellFormed cyclic
    cases outcome : c.validate with
    | ok _ => exact absurd (validate_eq_ok_iff.mp outcome).2 cyclic
    | error error => exact ⟨error, rfl, reports_of_validate_error wellFormed outcome⟩

/-- Two merges share an entry, one of them lists it twice, and a third one takes both. -/
def diamond : Configuration where
  entries := [
    .ofPreset "a" Preset.hermesName,
    .ofMerge "twice" ["a", "a"],
    .ofMerge "once" ["a"],
    .ofMerge "all" ["twice", "once"]]

def loop : Configuration where
  entries := [
    .ofMerge "start" ["p"],
    .ofMerge "p" ["q"],
    .ofMerge "q" ["r"],
    .ofMerge "r" ["p"]]

theorem acyclic_diamond : diamond.Acyclic := by
  apply acyclic_of_lt fun id => diamond.ids.idxOf id
  rintro id member ⟨e, inside, rfl, members, merge, listed⟩
  simp only [diamond, List.mem_cons, List.not_mem_nil, or_false] at inside
  rcases inside with rfl | rfl | rfl | rfl <;> cases merge
  all_goals
    revert member
    decide

theorem not_acyclic_loop : ¬loop.Acyclic := by
  have merges (id member : String) (e : ConfiguredEntry) (inside : e ∈ loop.entries)
      (same : e = .ofMerge id [member]) : loop.Merges id member :=
    ⟨e, inside, same ▸ rfl, [member], same ▸ rfl, List.mem_cons_self⟩
  have pq : loop.Merges "p" "q" := merges _ _ _ (by simp [loop]) rfl
  have qr : loop.Merges "q" "r" := merges _ _ _ (by simp [loop]) rfl
  have rp : loop.Merges "r" "p" := merges _ _ _ (by simp [loop]) rfl
  intro acyclic
  exact acyclic "p" (.head pq (.head qr (.single rp)))

theorem validate_exact_loop : (diamond.Valid ∧ diamond.validate = .ok ()) ∧
    loop.WellFormed ∧ ¬loop.Acyclic ∧
      ∃ error, loop.validate = .error error ∧ loop.Reports error := by
  have diamondFormed : diamond.WellFormed := wellFormed_iff.mpr ⟨by decide, by decide⟩
  have loopFormed : loop.WellFormed := wellFormed_iff.mpr ⟨by decide, by decide⟩
  have valid : diamond.Valid := ⟨diamondFormed, acyclic_diamond⟩
  exact ⟨⟨valid, (validate_exact diamond).1.mpr valid⟩, loopFormed, not_acyclic_loop,
    (validate_exact loop).2 loopFormed not_acyclic_loop⟩

end Configuration
end SchemaTrace
