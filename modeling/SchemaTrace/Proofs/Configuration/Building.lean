import SchemaTrace.Proofs.Configuration.Checkout
import SchemaTrace.Proofs.Configuration.Plan

/-! Building an entry. Where no entry leads back to itself, building follows the merges of an entry
down to the entries with conventions, from left to right. It succeeds if each of them has a checkout
and a convention that compiles, and fails as the first of them does that has not. -/

namespace SchemaTrace

theorem ConfiguredEntry.merge_eq_none_of_source {e : ConfiguredEntry} {convention : Convention}
    (source : e.source = .ok (.convention convention)) : e.merge = none := by
  rcases e with ⟨id, preset, spelled, merge, checkout⟩
  cases preset <;> cases spelled <;> cases merge <;> simp [ConfiguredEntry.source] at source ⊢

namespace Configuration

open Relation (ReflTransGen TransGen)

/-- The entries with conventions that an entry comes to: its merges spelled out from left to right,
each entry as often as it is named. -/
inductive Expands (c : Configuration) : String → List String → Prop
  | convention {id : String} {e : ConfiguredEntry} {convention : Convention}
    (found : c.find? id = some e) (source : e.source = .ok (.convention convention)) :
    Expands c id [id]
  | merge {id : String} {e : ConfiguredEntry} {members : List String} {parts : List (List String)}
    (found : c.find? id = some e) (source : e.source = .ok (.merge members))
    (each : List.Forall₂ (Expands c) members parts) : Expands c id parts.flatten

/-- An entry with a convention that cannot be built, and the error that tells why. -/
inductive Offends (c : Configuration) (id : String) : ConfigurationError → Prop
  | noCheckout {e : ConfiguredEntry} {convention : Convention} (found : c.find? id = some e)
    (source : e.source = .ok (.convention convention)) (missing : e.checkout = none) :
    Offends c id (.noCheckout id)
  | invalidConvention {e : ConfiguredEntry} {convention : Convention} {fault : Error}
    (found : c.find? id = some e) (source : e.source = .ok (.convention convention))
    (placed : e.checkout ≠ none) (rejected : convention.compile = .error fault) :
    Offends c id (.invalidConvention id fault)

def HasConvention (c : Configuration) (id : String) : Prop :=
  ∃ e convention, c.find? id = some e ∧ e.source = .ok (.convention convention)

variable {c : Configuration} {base id : String} {e : ConfiguredEntry} {convention : Convention}
  {members leaves : List String} {parts : List (List String)} {error : ConfigurationError}

section Leaves

theorem exists_leaf_iff (c : Configuration) (base : String) :
    (∃ made, c.leaf base e convention = .ok made) ↔
      e.checkout ≠ none ∧ ∃ filters, convention.compile = .ok filters := by
  cases placed : e.checkout with
  | none => simp [leaf, placed]
  | some checkout =>
    cases compiled : convention.compile <;>
      simp [leaf, placed, Extractor.ofConvention, Scanner.ofConvention, compiled, bind,
        Except.bind, pure, Except.pure]

theorem leaf_eq_error_iff : c.leaf base e convention = .error error ↔
    (e.checkout = none ∧ error = .noCheckout e.id) ∨
      (e.checkout ≠ none ∧
        ∃ fault, convention.compile = .error fault ∧ error = .invalidConvention e.id fault) := by
  cases placed : e.checkout with
  | none => simp [leaf, placed, eq_comm]
  | some checkout =>
    cases compiled : convention.compile <;>
      simp [leaf, placed, Extractor.ofConvention, Scanner.ofConvention, compiled, bind,
        Except.bind, pure, Except.pure, eq_comm]

theorem offends_iff (base : String) (found : c.find? id = some e)
    (source : e.source = .ok (.convention convention)) :
    c.Offends id error ↔ c.leaf base e convention = .error error := by
  have same : e.id = id := by simpa using List.find?_some found
  rw [leaf_eq_error_iff, same]
  constructor
  · intro offends
    cases offends with
    | noCheckout found' _ missing =>
      obtain rfl := Option.some.inj (found.symm.trans found')
      exact .inl ⟨missing, rfl⟩
    | invalidConvention found' source' placed rejected =>
      obtain rfl := Option.some.inj (found.symm.trans found')
      obtain rfl := Source.convention.inj (Except.ok.inj (source.symm.trans source'))
      exact .inr ⟨placed, _, rejected, rfl⟩
  · rintro (⟨missing, rfl⟩ | ⟨placed, fault, rejected, rfl⟩)
    · exact .noCheckout found source missing
    · exact .invalidConvention found source placed rejected

theorem plan_of_convention (acyclic : c.Acyclic) (found : c.find? id = some e)
    (source : e.source = .ok (.convention convention)) :
    c.plan base id = (c.leaf base e convention).map fun made => .scan id made.1 made.2 := by
  rw [plan_eq acyclic, assemble]
  simp only [found, source]
  cases c.leaf base e convention <;> rfl

theorem exists_plan_iff_of_convention (acyclic : c.Acyclic) (found : c.find? id = some e)
    (source : e.source = .ok (.convention convention)) : (∃ plan, c.plan base id = .ok plan) ↔
      e.checkout ≠ none ∧ ∃ filters, convention.compile = .ok filters := by
  rw [plan_of_convention acyclic found source, ← exists_leaf_iff c base]
  exact Except.exists_map_eq_ok_iff

theorem HasConvention.offends_iff (has : c.HasConvention id) (acyclic : c.Acyclic) :
    c.Offends id error ↔ c.plan base id = .error error := by
  rcases has with ⟨e, convention, found, source⟩
  rw [Configuration.offends_iff base found source, plan_of_convention acyclic found source]
  exact Except.map_eq_error_iff.symm

end Leaves

section Expansion

theorem plan_of_merge (acyclic : c.Acyclic) (found : c.find? id = some e)
    (source : e.source = .ok (.merge members)) :
    c.plan base id = (members.mapM (c.plan base)).map (.merge id) := by
  rw [plan_eq acyclic, assemble]
  simp only [found, source]
  cases members.mapM (c.plan base) <;> rfl

theorem forall₂_merges (found : c.find? id = some e) (source : e.source = .ok (.merge members))
    (each : List.Forall₂ c.Expands members parts) :
    List.Forall₂ (fun member part => c.Merges id member ∧ c.Expands member part) members parts :=
  (List.forall₂_and_left _ _).mpr ⟨fun _ => merges_of_source found source, each⟩

theorem source_unique {e' : ConfiguredEntry} {one other : Source} (found : c.find? id = some e)
    (source : e.source = .ok one) (found' : c.find? id = some e')
    (source' : e'.source = .ok other) : one = other := by
  obtain rfl := Option.some.inj (found.symm.trans found')
  exact Except.ok.inj (source.symm.trans source')

/-- What is made of a list of entries is made of their expansions one after the other. -/
theorem map_leavesOf_mapM {plan : String → Except ConfigurationError Plan}
    {each : String → Except ConfigurationError String}
    (spelled : List.Forall₂
      (fun member part => (plan member).map Plan.leaves = part.mapM each) members parts) :
    (members.mapM plan).map Plan.leavesOf = parts.flatten.mapM each := by
  induction spelled with
  | nil => rfl
  | @cons member part rest parts here _ ih =>
    rw [List.flatten_cons, List.mapM_append, ← here, ← ih, List.mapM_cons]
    cases plan member with
    | error error => rfl
    | ok first => cases rest.mapM plan <;> rfl

/-- Building an entry succeeds or fails as building the entries it expands to does, one after the
other, and they are what stands below the result. -/
theorem map_leaves_plan (base : String) (acyclic : c.Acyclic) (expands : c.Expands id leaves) :
    (c.plan base id).map Plan.leaves =
      leaves.mapM fun leaf => (c.plan base leaf).map fun _ => leaf := by
  -- What an entry expands to is given by lists of expansions, so the induction is along merges.
  induction id using acyclic.induction generalizing leaves with
  | step id ih =>
    cases expands with
    | convention found source =>
      rw [List.mapM_cons, List.mapM_nil, plan_of_convention acyclic found source]
      cases c.leaf base _ _ <;> rfl
    | @merge _ e members parts found source each =>
      have spelled := (forall₂_merges found source each).imp
        fun member part given => ih member given.1 given.2
      calc (c.plan base id).map Plan.leaves
          = ((members.mapM (c.plan base)).map (.merge id)).map Plan.leaves := by
            rw [plan_of_merge acyclic found source]
        _ = (members.mapM (c.plan base)).map Plan.leavesOf := by
            cases members.mapM (c.plan base) <;> rfl
        _ = parts.flatten.mapM fun leaf => (c.plan base leaf).map fun _ => leaf :=
            map_leavesOf_mapM spelled

theorem Expands.unique (acyclic : c.Acyclic) {others : List String}
    (one : c.Expands id leaves) (other : c.Expands id others) : leaves = others := by
  induction id using acyclic.induction generalizing leaves others with
  | step id ih =>
    cases one with
    | convention found source =>
      cases other with
      | convention => rfl
      | merge found' source' => cases source_unique found source found' source'
    | merge found source each =>
      cases other with
      | convention found' source' => cases source_unique found source found' source'
      | merge found' source' each' =>
        obtain rfl := Source.merge.inj (source_unique found source found' source')
        have agree : Relator.RightUnique
            (fun member part => c.Merges id member ∧ c.Expands member part) :=
          fun _ _ _ here there => ih _ here.1 here.2 there.2
        rw [List.right_unique_forall₂' agree (forall₂_merges found source each)
          (forall₂_merges found source each')]

theorem exists_expansions (each : ∀ member ∈ members, ∃ part, c.Expands member part) :
    ∃ parts, List.Forall₂ c.Expands members parts := by
  induction members with
  | nil => exact ⟨[], .nil⟩
  | cons member rest ih =>
    rcases List.forall_mem_cons.mp each with ⟨⟨part, here⟩, others⟩
    rcases ih others with ⟨parts, all⟩
    exact ⟨part :: parts, .cons here all⟩

theorem Valid.exists_source (valid : c.Valid) (inside : e ∈ c.entries) :
    ∃ source, e.source = .ok source :=
  ConfiguredEntry.exists_source_iff.mpr ⟨valid.oneSource e inside, valid.builtIn e inside⟩

theorem Valid.exists_expands (valid : c.Valid) (configured : id ∈ c.ids) :
    ∃ leaves, c.Expands id leaves := by
  induction id using valid.acyclic.induction with
  | step id ih =>
    rcases exists_find?_of_mem_ids configured with ⟨e, found⟩
    rcases valid.exists_source (List.mem_of_find?_eq_some found) with
      ⟨convention | members, source⟩
    · exact ⟨[id], .convention found source⟩
    · have each (member : String) (listed : member ∈ members) :
          ∃ part, c.Expands member part := by
        have merges := merges_of_source found source listed
        exact ih member merges (valid.configured id member merges)
      rcases exists_expansions each with ⟨parts, all⟩
      exact ⟨parts.flatten, .merge found source all⟩

theorem mem_flatten_iff {P : String → String → Prop} {leaf : String}
    (each : List.Forall₂ (fun member part => leaf ∈ part ↔ P member leaf) members parts) :
    leaf ∈ parts.flatten ↔ ∃ member ∈ members, P member leaf := by
  induction each with
  | nil => simp
  | cons here _ ih => simp [here, ih]

theorem not_merges_of_convention (distinct : c.ids.Nodup) (found : c.find? id = some e)
    (source : e.source = .ok (.convention convention)) (member : String) :
    ¬c.Merges id member := by
  intro merges
  have listed := (merges_iff distinct found).mp merges
  rw [ConfiguredEntry.merge_eq_none_of_source source] at listed
  cases listed

theorem Expands.mem_iff (valid : c.Valid) (expands : c.Expands id leaves) (leaf : String) :
    leaf ∈ leaves ↔ ReflTransGen c.Merges id leaf ∧ c.HasConvention leaf := by
  induction id using valid.acyclic.induction generalizing leaves with
  | step id ih =>
    cases expands with
    | convention found source =>
      rw [List.mem_singleton]
      constructor
      · rintro rfl
        exact ⟨.refl, _, _, found, source⟩
      · rintro ⟨path, -⟩
        rcases ReflTransGen.cases_head path with same | ⟨member, merges, -⟩
        · exact same.symm
        · exact absurd merges (not_merges_of_convention valid.distinct found source member)
    | @merge _ e members parts found source each =>
      have below := (forall₂_merges found source each).imp
        fun member part given => ih member given.1 given.2
      rw [mem_flatten_iff (P := fun member leaf =>
        ReflTransGen c.Merges member leaf ∧ c.HasConvention leaf) below]
      constructor
      · rintro ⟨member, listed, path, has⟩
        exact ⟨.head (merges_of_source found source listed) path, has⟩
      · rintro ⟨path, has⟩
        rcases ReflTransGen.cases_head path with rfl | ⟨member, merges, rest⟩
        · rcases has with ⟨e', convention, found', source'⟩
          cases source_unique found source found' source'
        · have listed := (merges_iff valid.distinct found).mp merges
          rw [(ConfiguredEntry.source_eq_merge_iff.mp source).2.2] at listed
          exact ⟨member, listed, rest, has⟩

end Expansion

section Depth

/-- Building with nothing that stops at an entry met again. Where merges nest deeper than the bound
there is no result. -/
def planWithin (c : Configuration) (base : String) :
    Nat → String → ExceptT ConfigurationError Option Plan
  | 0, _ => ExceptT.mk none
  | depth + 1, id =>
    c.assemble base (fun id root extractor => pure (.scan id root extractor))
      (fun id members => pure (.merge id members)) (planWithin c base depth) id

theorem run_mapM {f : String → ExceptT ConfigurationError Option Plan}
    {g : String → Except ConfigurationError Plan}
    (same : ∀ member ∈ members, (f member).run = some (g member)) :
    (members.mapM f).run = some (members.mapM g) := by
  induction members with
  | nil => rfl
  | cons member rest ih =>
    rcases List.forall_mem_cons.mp same with ⟨here, others⟩
    rw [List.mapM_cons, List.mapM_cons, ExceptT.run_bind, here]
    cases g member with
    | error error => rfl
    | ok plan =>
      have later := ih others
      simp only [ExceptT.run_bind, later]
      cases rest.mapM g <;> rfl

theorem rank_le_length (c : Configuration) (id : String) : c.rank id ≤ c.ids.length := by
  rw [rank]
  exact List.length_filter_le _ _

theorem run_planWithin (valid : c.Valid) (depth : Nat) (id : String) (deep : c.rank id < depth) :
    (c.planWithin base depth id).run = some (c.plan base id) := by
  -- Going down one merge lowers both the rank and the depth that is left.
  induction depth generalizing id with
  | zero => cases deep
  | succ depth ih =>
    rw [planWithin, plan_eq valid.acyclic, assemble, assemble]
    split
    · rfl
    · next e found =>
      split
      · rfl
      · split <;> rfl
      · next members source =>
        have each (member : String) (listed : member ∈ members) :
            (c.planWithin base depth member).run = some (c.plan base member) := by
          have merges := merges_of_source found source listed
          have lower := rank_lt valid.acyclic merges (valid.configured id member merges)
          exact ih member (Nat.lt_of_lt_of_le lower (Nat.le_of_lt_succ deep))
        rw [ExceptT.run_bind, run_mapM each]
        cases members.mapM (c.plan base) <;> rfl

end Depth

structure Builds (c : Configuration) (base : String) : Prop where
  /-- Building ends, with merges nesting no deeper than there are entries. -/
  ends : ∀ depth, c.ids.length < depth → ∀ id,
    (c.planWithin base depth id).run = some (c.plan base id)
  succeeds : ∀ id, (∃ plan, c.plan base id = .ok plan) ↔
    id ∈ c.ids ∧ ∀ e ∈ c.entries, ReflTransGen c.Merges id e.id →
      ∀ convention, e.source = .ok (.convention convention) →
        e.checkout ≠ none ∧ ∃ filters, convention.compile = .ok filters
  expands : ∀ id ∈ c.ids, ∃! leaves, c.Expands id leaves
  leaves : ∀ id plan, c.plan base id = .ok plan → c.Expands id plan.leaves
  /-- Building fails as the first entry does that cannot be built. -/
  failed : ∀ id ∈ c.ids, ∀ error, c.plan base id = .error error →
    ∃ before bad after, c.Expands id (before ++ bad :: after) ∧
      (∀ leaf ∈ before, ∀ other, ¬c.Offends leaf other) ∧ c.Offends bad error

section Results

theorem mem_ids_of_plan {plan : Plan} (acyclic : c.Acyclic) (ok : c.plan base id = .ok plan) :
    id ∈ c.ids := by
  cases found : c.find? id with
  | some e => exact id_mem_of_find? found
  | none =>
    rw [plan_eq acyclic, assemble, found] at ok
    cases ok

theorem exists_plan_iff_of_expands (acyclic : c.Acyclic) (expands : c.Expands id leaves) :
    (∃ plan, c.plan base id = .ok plan) ↔ ∀ leaf ∈ leaves, ∃ plan, c.plan base leaf = .ok plan := by
  have spelled : Plan.leaves <$> c.plan base id =
      leaves.mapM fun leaf => (fun _ => leaf) <$> c.plan base leaf :=
    map_leaves_plan base acyclic expands
  rw [← Except.exists_map_eq_ok_iff, spelled, Except.exists_mapM_eq_ok_iff]
  simp only [Except.exists_map_eq_ok_iff]

theorem Valid.exists_plan_iff (valid : c.Valid) (id : String) :
    (∃ plan, c.plan base id = .ok plan) ↔
      id ∈ c.ids ∧ ∀ e ∈ c.entries, ReflTransGen c.Merges id e.id →
        ∀ convention, e.source = .ok (.convention convention) →
          e.checkout ≠ none ∧ ∃ filters, convention.compile = .ok filters := by
  have leaf_iff {e : ConfiguredEntry} {convention : Convention} (inside : e ∈ c.entries)
      (source : e.source = .ok (.convention convention)) :
      (∃ plan, c.plan base e.id = .ok plan) ↔
        e.checkout ≠ none ∧ ∃ filters, convention.compile = .ok filters :=
    exists_plan_iff_of_convention valid.acyclic
      ((find?_eq_some_iff valid.distinct).mpr ⟨inside, rfl⟩) source
  constructor
  · rintro ⟨plan, ok⟩
    have configured := mem_ids_of_plan valid.acyclic ok
    refine ⟨configured, fun e inside path convention source => ?_⟩
    rcases valid.exists_expands configured with ⟨leaves, expands⟩
    have has : c.HasConvention e.id :=
      ⟨e, convention, (find?_eq_some_iff valid.distinct).mpr ⟨inside, rfl⟩, source⟩
    have each := (exists_plan_iff_of_expands valid.acyclic expands).mp ⟨plan, ok⟩
    exact (leaf_iff inside source).mp (each e.id ((expands.mem_iff valid e.id).mpr ⟨path, has⟩))
  · rintro ⟨configured, ready⟩
    rcases valid.exists_expands configured with ⟨leaves, expands⟩
    refine (exists_plan_iff_of_expands valid.acyclic expands).mpr fun leaf listed => ?_
    rcases (expands.mem_iff valid leaf).mp listed with ⟨path, e, convention, found, source⟩
    rcases (find?_eq_some_iff valid.distinct).mp found with ⟨inside, rfl⟩
    exact (leaf_iff inside source).mpr (ready e inside path convention source)

theorem Valid.expands_of_plan (valid : c.Valid) {plan : Plan} (ok : c.plan base id = .ok plan) :
    c.Expands id plan.leaves := by
  rcases valid.exists_expands (mem_ids_of_plan valid.acyclic ok) with ⟨leaves, expands⟩
  have spelled := map_leaves_plan base valid.acyclic expands
  rw [ok] at spelled
  have same : List.Forall₂ Eq leaves plan.leaves := by
    refine (Except.mapM_eq_ok_iff.mp spelled.symm).imp fun leaf other made => ?_
    rcases Except.map_eq_ok_iff.mp made with ⟨_, _, same⟩
    exact same
  have leaves_eq : leaves = plan.leaves := List.forall₂_eq_eq_eq ▸ same
  exact leaves_eq ▸ expands

theorem Valid.exists_offends (valid : c.Valid) (configured : id ∈ c.ids)
    (failed : c.plan base id = .error error) :
    ∃ before bad after, c.Expands id (before ++ bad :: after) ∧
      (∀ leaf ∈ before, ∀ other, ¬c.Offends leaf other) ∧ c.Offends bad error := by
  rcases valid.exists_expands configured with ⟨leaves, expands⟩
  have spelled := map_leaves_plan base valid.acyclic expands
  rw [failed] at spelled
  rcases Except.mapM_eq_error_iff.mp spelled.symm with ⟨before, bad, after, rfl, passed, here⟩
  have offends_plan (leaf : String) (listed : leaf ∈ before ++ bad :: after)
      (error : ConfigurationError) : c.Offends leaf error ↔ c.plan base leaf = .error error :=
    ((expands.mem_iff valid leaf).mp listed).2.offends_iff valid.acyclic
  refine ⟨before, bad, after, expands, fun leaf listed other offends => ?_, ?_⟩
  · have planned := (offends_plan leaf (by simp [listed]) other).mp offends
    rcases Except.exists_map_eq_ok_iff.mp (passed leaf listed) with ⟨_, ok⟩
    cases planned.symm.trans ok
  · exact (offends_plan bad (by simp) error).mpr (Except.map_eq_error_iff.mp here)

theorem Valid.builds (valid : c.Valid) (base : String) : c.Builds base where
  ends depth deep id :=
    run_planWithin valid depth id (Nat.lt_of_le_of_lt (rank_le_length c id) deep)
  succeeds := valid.exists_plan_iff
  expands id configured := by
    rcases valid.exists_expands configured with ⟨leaves, expands⟩
    exact ⟨leaves, expands, fun _ other => other.unique valid.acyclic expands⟩
  leaves _ _ := valid.expands_of_plan
  failed _ configured _ := valid.exists_offends configured

/-- A configuration that is accepted builds an entry exactly if the entries with conventions that
are reached from it can be built, and it is still accepted with a checkout set. -/
theorem plan_exact (accepted : c.validate = .ok ()) :
    (∀ base, c.Builds base) ∧ ∀ id ∈ c.ids, ∀ checkout, ∃ changed,
      c.setCheckout id checkout = .ok changed ∧ changed.validate = .ok () := by
  have valid := Valid.of_validate accepted
  refine ⟨valid.builds, fun id configured checkout => ?_⟩
  rcases valid.exists_setCheckout configured checkout with ⟨changed, placed, still⟩
  exact ⟨changed, placed, validate_eq_ok_iff.mpr ⟨still.toWellFormed, still.acyclic⟩⟩

theorem plan_exact_diamond : diamond.validate = .ok () ∧
    diamond.Expands "all" ["a", "a", "a"] ∧ diamond.Offends "a" (.noCheckout "a") ∧
    (∀ base, diamond.Builds base) ∧ ∀ id ∈ diamond.ids, ∀ checkout, ∃ changed,
      diamond.setCheckout id checkout = .ok changed ∧ changed.validate = .ok () := by
  have accepted : diamond.validate = .ok () :=
    validate_eq_ok_iff.mpr ⟨wellFormed_iff.mpr ⟨by decide, by decide⟩, acyclic_diamond⟩
  have found : diamond.find? "a" = some (.ofPreset "a" Preset.hermesName) := by decide
  have source : (ConfiguredEntry.ofPreset "a" Preset.hermesName).source =
      .ok (.convention Preset.hermes) := rfl
  have a : diamond.Expands "a" ["a"] := .convention found source
  have twice : diamond.Expands "twice" ["a", "a"] :=
    .merge (e := .ofMerge "twice" ["a", "a"]) (by decide) rfl (.cons a (.cons a .nil))
  have once : diamond.Expands "once" ["a"] :=
    .merge (e := .ofMerge "once" ["a"]) (by decide) rfl (.cons a .nil)
  have all : diamond.Expands "all" ["a", "a", "a"] :=
    .merge (e := .ofMerge "all" ["twice", "once"]) (by decide) rfl (.cons twice (.cons once .nil))
  exact ⟨accepted, all, .noCheckout found source rfl, plan_exact accepted⟩

end Results

end Configuration
end SchemaTrace
