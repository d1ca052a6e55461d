import SchemaTrace.Proofs.Except
import SchemaTrace.Proofs.Extractor.History

/-! Implementations within a session. A step on the extractors that succeeds leaves the references
that each of them gives as they were, so several implementations can be asked one after the other,
or each on its own, to the same effect. -/

namespace SchemaTrace

namespace Extractor

variable {p : Provider} {x x' : Extractor}

theorem holds_of_snapshot_eq_ok {s : Snapshot} (got : x.snapshot p = (.ok s, x')) :
    x'.Holds s := by
  by_cases held : ∃ s', x.Holds s'
  · obtain ⟨s', holds⟩ := held
    rw [snapshot_of_holds holds] at got
    obtain ⟨same, rfl⟩ := Prod.mk.inj got
    exact Except.ok.inj same ▸ holds
  · obtain ⟨outcome, cache, got', kept⟩ := snapshot_of_missing (p := p) (not_exists.mp held)
    rw [got'] at got
    obtain ⟨rfl, rfl⟩ := Prod.mk.inj got
    exact kept

theorem references_again {schema : Schema} {found : ReferenceMap}
    (given : x.references p schema = (.ok found, x')) :
    x'.references p schema = (.ok found, x') := by
  rw [references] at given
  split at given
  · cases given
  · next s y got =>
    obtain ⟨extracted, rfl⟩ := Prod.mk.inj given
    have held : y.Holds s := holds_of_snapshot_eq_ok got
    have holds :
        Holds { y with comments := some (y.comments.getD (y.scanner.indexComments s)) } s := held
    rw [references, snapshot_of_holds holds]
    exact Prod.ext extracted rfl

end Extractor

namespace Implementation

variable {α β : Type}

def outcome (step : Extracting α) (s : Extractors) : Except Error α := (step.run.run s).1

def after (step : Extracting α) (s : Extractors) : Extractors := (step.run.run s).2

theorem outcome_bind (step : Extracting α) (next : α → Extracting β) (s : Extractors) :
    outcome (step >>= next) s =
      (outcome step s >>= fun a => outcome (next a) (after step s)) := by
  unfold outcome after
  simp only [ExceptT.run_bind, StateT.run_bind]
  rcases step.run.run s with ⟨_ | _, _⟩ <;> rfl

theorem outcome_map (f : α → β) (step : Extracting α) (s : Extractors) :
    outcome (f <$> step) s = f <$> outcome step s := by
  rw [map_eq_pure_bind, outcome_bind, map_eq_pure_bind]
  rfl

theorem after_bind_of_ok {step : Extracting α} {s : Extractors} {a : α}
    (ok : outcome step s = .ok a) (next : α → Extracting β) :
    after (step >>= next) s = after (next a) (after step s) := by
  unfold outcome at ok
  unfold after
  simp only [ExceptT.run_bind, StateT.run_bind]
  revert ok
  rcases step.run.run s with ⟨_ | _, _⟩
  · intro ok
    cases ok
  · intro ok
    obtain rfl := Except.ok.inj ok
    rfl

theorem outcome_get_bind (next : Extractors → Extracting β) (s : Extractors) :
    outcome (get >>= next) s = outcome (next s) s := rfl

theorem after_get_bind (next : Extractors → Extracting β) (s : Extractors) :
    after (get >>= next) s = after (next s) s := rfl

theorem onSlot_of_some {slot : Nat} {s : Extractors} {x : Extractor} (held : s[slot]? = some x)
    (step : Extractor → Except Error α × Extractor) :
    outcome (onSlot slot step) s = (step x).1 ∧
      after (onSlot slot step) s = s.set slot (step x).2 := by
  constructor
  · rw [onSlot, outcome_get_bind, held]
    rfl
  · rw [onSlot, after_get_bind, held]
    rfl

theorem outcome_onSlot_of_none {slot : Nat} {s : Extractors} (free : s[slot]? = none)
    (step : Extractor → Except Error α × Extractor) :
    outcome (onSlot slot step) s = .error (.schema (.stated s!"no extractor in slot {slot}")) := by
  rw [onSlot, outcome_get_bind, free]
  rfl

variable {providers : Nat → Provider} {schema : Schema} {step : Extracting α}
  {next : α → Extracting β}

def answers (providers : Nat → Provider) (schema : Schema) (s : Extractors) (slot : Nat) :
    Except Error ReferenceMap :=
  outcome (onSlot slot (Extractor.references (providers slot) schema)) s

/-- Only what the extractors give decides what a step gives, and where the step succeeds they give
the same after it. -/
structure Steady (providers : Nat → Provider) (schema : Schema) (step : Extracting α) : Prop where
  decided : ∀ s t, answers providers schema s = answers providers schema t →
    outcome step s = outcome step t
  settled : ∀ s a, outcome step s = .ok a →
    answers providers schema (after step s) = answers providers schema s

theorem steady_pure (a : α) : Steady providers schema (pure a : Extracting α) where
  decided _ _ _ := rfl
  settled _ _ _ := rfl

theorem Steady.outcome_bind (first : Steady providers schema step)
    (rest : ∀ a, Steady providers schema (next a)) (s : Extractors) :
    outcome (step >>= next) s = (outcome step s >>= fun a => outcome (next a) s) := by
  rw [Implementation.outcome_bind]
  cases ok : outcome step s with
  | error e => rfl
  | ok a => exact (rest a).decided _ _ (first.settled s a ok)

theorem Steady.bind (first : Steady providers schema step)
    (rest : ∀ a, Steady providers schema (next a)) : Steady providers schema (step >>= next) where
  decided s t same := by
    rw [first.outcome_bind rest, first.outcome_bind rest, first.decided s t same]
    congr 1
    funext a
    exact (rest a).decided s t same
  settled s b ok := by
    rw [Implementation.outcome_bind] at ok
    obtain ⟨a, first_ok, rest_ok⟩ := Except.bind_eq_ok_iff.mp ok
    calc
      answers providers schema (after (step >>= next) s) =
          answers providers schema (after (next a) (after step s)) := by
        rw [after_bind_of_ok first_ok]
      _ = answers providers schema (after step s) := (rest a).settled _ b rest_ok
      _ = answers providers schema s := first.settled s a first_ok

theorem steady_onSlot (slot : Nat) :
    Steady providers schema (onSlot slot (Extractor.references (providers slot) schema)) where
  decided s t same := congrFun same slot
  settled s found ok := by
    funext other
    cases held : s[slot]? with
    | none =>
      rw [outcome_onSlot_of_none held] at ok
      cases ok
    | some x =>
      obtain ⟨gives, changes⟩ :=
        onSlot_of_some held (Extractor.references (providers slot) schema)
      have again := Extractor.references_again (Prod.ext (gives.symm.trans ok) rfl)
      rw [changes]
      by_cases same : other = slot
      · subst same
        have inside : other < s.length := (List.getElem?_eq_some_iff.mp held).1
        have now : (s.set other (x.references (providers other) schema).2)[other]? =
            some (x.references (providers other) schema).2 := by
          rw [List.getElem?_set_self inside]
        rw [answers, (onSlot_of_some now _).1, again]
        exact ok.symm
      · have now : (s.set slot (x.references (providers slot) schema).2)[other]? = s[other]? :=
          List.getElem?_set_ne (Ne.symm same)
        unfold answers
        cases there : s[other]? with
        | none =>
          rw [outcome_onSlot_of_none there, outcome_onSlot_of_none (now.trans there)]
        | some y =>
          rw [(onSlot_of_some there _).1, (onSlot_of_some (now.trans there) _).1]

mutual

theorem steady_references : ∀ i : Implementation,
    Steady providers schema (references providers schema i)
  | .single slot _ => steady_onSlot slot
  | .merged children => steady_referencesOf children .empty

theorem steady_referencesOf : ∀ (children : List Implementation) (found : ReferenceMap),
    Steady providers schema (referencesOf providers schema found children)
  | [], found => steady_pure found
  | child :: rest, found =>
    (steady_references child).bind fun more => steady_referencesOf rest (found.extend more)

end

theorem outcome_referencesOf (children : List Implementation) (found : ReferenceMap)
    (s : Extractors) : outcome (referencesOf providers schema found children) s =
      (children.mapM fun child => outcome (references providers schema child) s).map
        (List.foldl ReferenceMap.extend found) := by
  induction children generalizing found with
  | nil => rfl
  | cons child rest ih =>
    rw [referencesOf, (steady_references child).outcome_bind fun _ => steady_referencesOf rest _,
      List.mapM_cons]
    simp only [ih]
    cases outcome (references providers schema child) s with
    | error e => rfl
    | ok more =>
      cases rest.mapM fun child => outcome (references providers schema child) s with
      | error e => rfl
      | ok maps => rfl

theorem outcome_filter (i : Implementation) (s : Extractors) :
    outcome (filter providers schema i) s =
      (outcome (references providers schema i) s >>= filterBy schema) := by
  rw [filter, outcome_bind]
  rfl

end Implementation
end SchemaTrace
