import SchemaTrace.Proofs.Configuration.Instances

/-! Lookups of a session, in any order. Each id is built at most once, the merges that name it share
what was built, and what stands below an instance is what the plan of its entry spells out. -/

namespace SchemaTrace

namespace Instances

open Relation (ReflTransGen TransGen)

variable {c : Configuration} {base : String} {s s' : Instances} {id : String}
  {i : Implementation} {members : List String} {children : List Implementation}

def Spells (s : Instances) (i : Implementation) (plan : Plan) : Prop :=
  i.leaves.map s.owner? = plan.leaves.map some

theorem exists_plans
    (each : List.Forall₂ (fun member child => ∃ plan, c.plan base member = .ok plan ∧
      s.Spells child plan) members children) :
    ∃ plans, members.mapM (c.plan base) = .ok plans ∧
      (Implementation.leavesOf children).map s.owner? = (Plan.leavesOf plans).map some := by
  induction each with
  | nil => exact ⟨[], rfl, rfl⟩
  | cons here others ih =>
    rcases here with ⟨plan, planned, spelled⟩
    rcases ih with ⟨plans, all, rest⟩
    refine ⟨plan :: plans, ?_, ?_⟩
    · rw [List.mapM_cons, planned, all]
      rfl
    · rw [Spells] at spelled
      rw [Implementation.leavesOf, Plan.leavesOf, List.map_append, List.map_append, spelled, rest]

theorem Sound.exists_plan (sound : Sound c base s) (acyclic : c.Acyclic) (id : String)
    (i : Implementation) (inside : (id, i) ∈ s.built) :
    ∃ plan, c.plan base id = .ok plan ∧ s.Spells i plan := by
  induction id using acyclic.induction generalizing i with
  | step id ih =>
    cases sound.made id i inside with
    | @scan e convention root extractor slot found source leaf held placed =>
      refine ⟨.scan id root extractor, ?_, ?_⟩
      · rw [Configuration.plan_eq acyclic, Configuration.assemble]
        simp only [found, source, leaf]
      · simp [Spells, Implementation.leaves, Plan.leaves, sound.owner?_of_mem inside]
    | @merge e members children found source named =>
      have below (member : String) (listed : member ∈ members) : c.Merges id member :=
        Configuration.merges_of_source found source listed
      have each := ((List.forall₂_and_left _ _).mpr ⟨below, named⟩).imp
        fun member child given => ih member given.1 child given.2
      rcases exists_plans each with ⟨plans, all, spelled⟩
      refine ⟨.merge id plans, ?_, spelled⟩
      rw [Configuration.plan_eq acyclic, Configuration.assemble]
      simp only [found, source, all]
      rfl

def Has (id : String) (s : Instances) (i : Implementation) : Prop := (id, i) ∈ s.built

def HasAll (ids : List String) (s : Instances) (children : List Implementation) : Prop :=
  List.Forall₂ (fun id i => (id, i) ∈ s.built) ids children

theorem Sound.exists_plans (sound : Sound c base s) (acyclic : c.Acyclic)
    (all : HasAll members s children) : ∃ plans, members.mapM (c.plan base) = .ok plans := by
  have each := List.Forall₂.imp (fun id i inside => sound.exists_plan acyclic id i inside) all
  rcases Instances.exists_plans each with ⟨plans, planned, -⟩
  exact ⟨plans, planned⟩

/-- What a step does that looks up instances: it adds some of the ids in `new`, keeps what it
returns, and fails only where making a plan does. -/
structure Follows {α β : Type} (c : Configuration) (base : String) (s : Instances)
    (new : String → Prop) (kept : Instances → α → Prop) (plan : Except ConfigurationError β)
    (r : Except ConfigurationError α × Instances) : Prop where
  sound : Sound c base r.2
  ext : s.Extends r.2
  new : ∀ id ∈ r.2.ids, id ∈ s.ids ∨ new id
  kept : ∀ a, r.1 = .ok a → kept r.2 a
  failed : ∀ error, r.1 = .error error → plan = .error error

section Rules

variable {α β γ δ : Type} {new more : String → Prop} {kept : Instances → α → Prop}
  {keptNext : Instances → β → Prop} {plan : Except ConfigurationError γ}
  {planNext : γ → Except ConfigurationError δ} {step : Building α} {next : α → Building β}

theorem follows_ok {a : α} (sound : Sound c base s) (here : kept s a) :
    Follows c base s new kept plan (.ok a, s) where
  sound := sound
  ext := .refl s
  new _ inside := .inl inside
  kept _ ok := Except.ok.inj ok ▸ here
  failed := nofun

theorem follows_error {error : ConfigurationError} (sound : Sound c base s) :
    Follows c base s new kept (.error error : Except _ γ) (.error error, s) where
  sound := sound
  ext := .refl s
  new _ inside := .inl inside
  kept := nofun
  failed _ failed := by rw [Except.error.inj failed]

theorem Follows.weaken {r : Except ConfigurationError α × Instances}
    (follows : Follows c base s new kept plan r) (implies : ∀ id, new id → more id) :
    Follows c base s more kept plan r :=
  { follows with new := fun id inside => (follows.new id inside).imp_right (implies id) }

theorem Follows.bind (first : Follows c base s new kept plan (run step s))
    (rest : ∀ a s', run step s = (.ok a, s') →
      ∃ b, plan = .ok b ∧ Follows c base s' new keptNext (planNext b) (run (next a) s')) :
    Follows c base s new keptNext (plan >>= planNext) (run (step >>= next) s) := by
  rcases ran : run step s with ⟨error | a, s'⟩
  · rw [ran] at first
    rw [run_bind_of_error ran, first.failed error rfl]
    exact {
      sound := first.sound
      ext := first.ext
      new := first.new
      kept := nofun
      failed := fun _ failed => by rw [← Except.error.inj failed]; rfl }
  · rcases rest a s' ran with ⟨b, planned, later⟩
    rw [ran] at first
    rw [run_bind_of_ok ran, planned]
    exact { later with
      ext := first.ext.trans later.ext
      new := fun id inside => (later.new id inside).elim (first.new id) .inr }

end Rules

section Steps

variable {new : String → Prop} {e : ConfiguredEntry}

theorem follows_add {plan : Except ConfigurationError Plan} (sound : Sound c base s)
    (ext : s.Extends s') (added : s'.built = s.built ++ [(id, i)]) (fresh : id ∉ s.ids)
    (made : Made c base s' id i)
    (slots : s'.built.filterMap (fun b => b.2.slot?) = List.range s'.extractors.length)
    (roots : s'.roots.length = s'.extractors.length) (here : new id) :
    Follows c base s new (Has id) plan (.ok i, s') where
  sound := {
    once := by
      rw [ids, added, List.map_append, List.nodup_append]
      refine ⟨sound.once, List.nodup_singleton id, ?_⟩
      intro other inside last member same
      rw [same, List.mem_singleton.mp member] at inside
      exact fresh inside
    made := by
      intro other j inside
      rw [added] at inside
      rcases List.mem_append.mp inside with earlier | last
      · exact ext.made (sound.made other j earlier)
      · rcases Prod.mk.inj (List.mem_singleton.mp last) with ⟨rfl, rfl⟩
        exact made
    slots
    roots }
  ext := ext
  new other inside := by
    rw [ids, added, List.map_append] at inside
    rcases List.mem_append.mp inside with earlier | last
    · exact .inl earlier
    · exact .inr (List.mem_singleton.mp last ▸ here)
  kept j ok := by
    rw [Has, added, ← Except.ok.inj ok]
    simp
  failed _ failed := by cases failed

theorem follows_scan {plan : Except ConfigurationError Plan} {convention : Convention}
    {root : String} {extractor : Extractor} (sound : Sound c base s) (fresh : id ∉ s.ids)
    (found : c.find? id = some e) (source : e.source = .ok (.convention convention))
    (leaf : c.leaf base e convention = .ok (root, extractor)) (here : new id) :
    Follows c base s new (Has id) plan (run (scan id root extractor) s) := by
  rw [run_scan]
  apply follows_add sound
    ⟨List.prefix_append _ _, List.prefix_append _ _, List.prefix_append _ _⟩ rfl fresh _ _ _ here
  · apply Made.scan found source leaf
    · simp
    · simp [← sound.roots]
  · rw [List.filterMap_append, sound.slots]
    simp [Implementation.slot?, List.range_succ]
  · simp [sound.roots]

theorem follows_keep {plan : Except ConfigurationError Plan} (sound : Sound c base s)
    (fresh : id ∉ s.ids) (found : c.find? id = some e)
    (source : e.source = .ok (.merge members)) (named : HasAll members s children)
    (here : new id) :
    Follows c base s new (Has id) plan (run (keep id (.merged children)) s) := by
  rw [run_keep]
  have ext : s.Extends { s with built := s.built ++ [(id, .merged children)] } :=
    ⟨List.prefix_append _ _, List.prefix_refl _, List.prefix_refl _⟩
  apply follows_add sound ext rfl fresh _ _ sound.roots here
  · exact .merge found source (named.imp fun _ _ inside => ext.mem inside)
  · rw [List.filterMap_append, sound.slots]
    simp [Implementation.slot?]

end Steps

theorem follows_mapM {new : String → Prop} (acyclic : c.Acyclic)
    (each : ∀ member ∈ members, ∀ s, Sound c base s →
      Follows c base s new (Has member) (c.plan base member) (run (lookup c base member) s))
    (sound : Sound c base s) :
    Follows c base s new (HasAll members) (members.mapM (c.plan base))
      (run (members.mapM (lookup c base)) s) := by
  induction members generalizing s with
  | nil =>
    rw [List.mapM_nil, List.mapM_nil]
    exact follows_ok sound .nil
  | cons member rest ih =>
    have here := each member List.mem_cons_self s sound
    rw [List.mapM_cons, List.mapM_cons]
    refine here.bind fun child s' ran => ?_
    rw [ran] at here
    have first : (member, child) ∈ s'.built := here.kept child rfl
    rcases here.sound.exists_plan acyclic member child first with ⟨plan, planned, -⟩
    have later := ih (fun other listed => each other (List.mem_cons_of_mem _ listed)) here.sound
    refine ⟨plan, planned, later.bind fun children s'' others => ?_⟩
    rw [others] at later
    have all : HasAll rest s'' children := later.kept children rfl
    rcases later.sound.exists_plans acyclic all with ⟨plans, planned'⟩
    exact ⟨plans, planned', follows_ok later.sound (.cons (later.ext.mem first) all)⟩

/-- Building a merge from what lies below it. Its id is not among the ids that this adds, as no
entry leads back to itself. -/
theorem follows_merge {e : ConfiguredEntry} (acyclic : c.Acyclic) (fresh : id ∉ s.ids)
    (found : c.find? id = some e) (source : e.source = .ok (.merge members))
    (all : Follows c base s (TransGen c.Merges id) (HasAll members)
      (members.mapM (c.plan base)) (run (members.mapM (lookup c base)) s)) :
    Follows c base s (ReflTransGen c.Merges id) (Has id)
      (members.mapM (c.plan base) >>= fun plans => .ok (Plan.merge id plans))
      (run (members.mapM (lookup c base) >>= fun all => keep id (.merged all)) s) := by
  refine (all.weaken fun _ => TransGen.to_reflTransGen).bind fun children s' ran => ?_
  rw [ran] at all
  have named : HasAll members s' children := all.kept children rfl
  have still : id ∉ s'.ids := fun inside => (all.new id inside).elim fresh (acyclic id)
  rcases all.sound.exists_plans acyclic named with ⟨plans, planned⟩
  exact ⟨plans, planned, follows_keep all.sound still found source named .refl⟩

theorem run_lookup_of_built (known : s.built.lookup id = some i) :
    run (lookup c base id) s = (.ok i, s) := by
  rw [lookup, buildFrom, run_get_bind, known]
  rfl

theorem run_lookup_of_missing (acyclic : c.Acyclic) (missing : s.built.lookup id = none) :
    run (lookup c base id) s =
      run (c.assemble base scan (fun id members => keep id (.merged members)) (lookup c base) id)
        s := by
  rw [lookup_eq acyclic, remembered, run_get_bind, missing]

theorem follows_lookup (acyclic : c.Acyclic) (id : String) (s : Instances)
    (sound : Sound c base s) :
    Follows c base s (ReflTransGen c.Merges id) (Has id) (c.plan base id)
      (run (lookup c base id) s) := by
  induction id using acyclic.induction generalizing s with
  | step id ih =>
    cases known : s.built.lookup id with
    | some i =>
      rw [run_lookup_of_built known]
      exact follows_ok sound (mem_built_of_lookup known)
    | none =>
      have fresh := not_mem_ids_of_lookup known
      rw [run_lookup_of_missing acyclic known, Configuration.plan_eq acyclic,
        Configuration.assemble, Configuration.assemble]
      split
      · exact follows_error sound
      · next e found =>
        split
        · exact follows_error sound
        · next convention source =>
          split
          · exact follows_error sound
          · next root extractor leaf => exact follows_scan sound fresh found source leaf .refl
        · next members source =>
          -- The members are looked up in a session that the ones before have changed.
          refine follows_merge acyclic fresh found source (follows_mapM acyclic ?_ sound)
          intro member listed s sound
          have merges := Configuration.merges_of_source found source listed
          exact (ih member merges s sound).weaken fun _ => .head' merges

structure History where
  instances : Instances := {}
  returns : List (String × Except ConfigurationError Implementation) := []

namespace History

def step (c : Configuration) (base : String) (h : History) (id : String) : History :=
  let (returned, instances) := run (lookup c base id) h.instances
  ⟨instances, (id, returned) :: h.returns⟩

def after (c : Configuration) (base : String) (ids : List String) : History :=
  ids.foldl (step c base) {}

variable {h : History}

structure Sound (c : Configuration) (base : String) (h : History) : Prop where
  instances : Instances.Sound c base h.instances
  returned : ∀ id i, (id, .ok i) ∈ h.returns → (id, i) ∈ h.instances.built

theorem Sound.step (sound : Sound c base h) (acyclic : c.Acyclic) (id : String) :
    Sound c base (h.step c base id) := by
  have follows := follows_lookup acyclic id h.instances sound.instances
  refine ⟨follows.sound, ?_⟩
  intro other i inside
  rcases List.mem_cons.mp inside with last | earlier
  · rcases Prod.mk.inj last with ⟨rfl, ok⟩
    exact follows.kept i ok.symm
  · exact follows.ext.mem (sound.returned other i earlier)

theorem sound_after (acyclic : c.Acyclic) (ids : List String) :
    Sound c base (after c base ids) := by
  have kept (h : History) (sound : Sound c base h) :
      Sound c base (ids.foldl (History.step c base) h) := by
    induction ids generalizing h with
    | nil => exact sound
    | cons id rest ih => exact ih _ (sound.step acyclic id)
  exact kept {} ⟨sound_empty, nofun⟩

/-- Instances are built once and shared. -/
structure Shared (c : Configuration) (base : String) (h : History) : Prop where
  once : h.instances.ids.Nodup
  /-- The slots in the order in which they were taken, each by one instance. -/
  slots : h.instances.built.filterMap (fun b => b.2.slot?) =
    List.range h.instances.extractors.length
  returned : ∀ id i, (id, .ok i) ∈ h.returns → (id, i) ∈ h.instances.built
  same : ∀ id i j, (id, .ok i) ∈ h.returns → (id, .ok j) ∈ h.returns → i = j
  /-- A lookup of what was built gives it and builds nothing. -/
  again : ∀ id i, (id, i) ∈ h.instances.built →
    run (lookup c base id) h.instances = (.ok i, h.instances)
  made : ∀ id i, (id, i) ∈ h.instances.built → Made c base h.instances id i
  /-- A merge has the very instances that lookups of the ids it names give. -/
  children : ∀ id children, (id, .merged children) ∈ h.instances.built →
    ∃ e members, c.find? id = some e ∧ e.source = .ok (.merge members) ∧
      List.Forall₂ (fun member child =>
        run (lookup c base member) h.instances = (.ok child, h.instances)) members children
  /-- What was built stays, also if the next lookup fails. -/
  stays : ∀ id, h.instances.Extends (run (lookup c base id) h.instances).2
  failed : ∀ id error, (run (lookup c base id) h.instances).1 = .error error →
    id ∉ (run (lookup c base id) h.instances).2.ids
  /-- A lookup fails as making the plan does, or has the entries below it that the plan has. -/
  plans : ∀ id, (run (lookup c base id) h.instances).1.map
      (fun i => i.leaves.map (run (lookup c base id) h.instances).2.owner?) =
    (c.plan base id).map fun plan => plan.leaves.map some

theorem Sound.run_lookup (sound : Sound c base h) (inside : (id, i) ∈ h.instances.built) :
    run (lookup c base id) h.instances = (.ok i, h.instances) :=
  run_lookup_of_built (sound.instances.lookup_eq_some inside)

theorem Sound.shared (sound : Sound c base h) (acyclic : c.Acyclic) : Shared c base h where
  once := sound.instances.once
  slots := sound.instances.slots
  returned := sound.returned
  same id i j first second := by
    have one := (sound.run_lookup (sound.returned id i first)).symm.trans
      (sound.run_lookup (sound.returned id j second))
    exact Except.ok.inj (Prod.mk.inj one).1
  again id i := sound.run_lookup
  made := sound.instances.made
  children id children inside := by
    cases sound.instances.made id _ inside with
    | @merge e members _ found source named =>
      exact ⟨e, members, found, source, named.imp fun _ _ built => sound.run_lookup built⟩
  stays id := (follows_lookup acyclic id h.instances sound.instances).ext
  failed id error failed inside := by
    have follows := follows_lookup acyclic id h.instances sound.instances
    rcases List.mem_map.mp inside with ⟨b, built, rfl⟩
    rcases follows.sound.exists_plan acyclic b.1 b.2 built with ⟨plan, planned, -⟩
    rw [follows.failed error failed] at planned
    cases planned
  plans id := by
    have follows := follows_lookup acyclic id h.instances sound.instances
    cases outcome : (run (lookup c base id) h.instances).1 with
    | error error =>
      rw [follows.failed error outcome]
      rfl
    | ok i =>
      rcases follows.sound.exists_plan acyclic id i (follows.kept i outcome) with
        ⟨plan, planned, spelled⟩
      rw [planned]
      exact congrArg Except.ok spelled

/-- Of a configuration that is accepted, whatever is looked up in whatever order, each entry is
built once, what was built is shared, and it is what plans spell out. -/
theorem after_shared (accepted : c.validate = .ok ()) (base : String) (ids : List String) :
    Shared c base (after c base ids) := by
  have acyclic := (Configuration.Valid.of_validate accepted).acyclic
  exact (sound_after acyclic ids).shared acyclic

/-- Entries that several merges share, one of them twice, and one without a checkout. -/
def agents : Configuration where
  entries := [
    { id := "a", convention := some Scanner.agentConvention, checkout := some "a" },
    { id := "b", convention := some Scanner.agentConvention, checkout := some "b" },
    { id := "bare", convention := some Scanner.agentConvention },
    .ofMerge "twice" ["a", "b", "a"],
    .ofMerge "broken" ["b", "bare", "a"],
    .ofMerge "all" ["twice", "b"]]

theorem acyclic_agents : agents.Acyclic := by
  apply Configuration.acyclic_of_lt fun id => agents.ids.idxOf id
  rintro id member ⟨e, inside, rfl, members, merge, listed⟩
  simp only [agents, List.mem_cons, List.not_mem_nil, or_false] at inside
  rcases inside with rfl | rfl | rfl | rfl | rfl | rfl <;> cases merge
  all_goals
    revert member
    decide

theorem plan_agents_of_checkout (id checkout : String)
    (found : agents.find? id =
      some { id, convention := some Scanner.agentConvention, checkout := some checkout }) :
    ∃ extractor, agents.plan "." id = .ok (.scan id (Path.join "." checkout) extractor) := by
  have compiles :
      (Extractor.ofConvention Scanner.agentConvention agents.tag).toOption.isSome = true := by
    decide +kernel
  rw [Configuration.plan_eq acyclic_agents, Configuration.assemble]
  simp only [found, ConfiguredEntry.source, Configuration.leaf]
  cases made : Extractor.ofConvention Scanner.agentConvention agents.tag with
  | error e =>
    rw [made] at compiles
    cases compiles
  | ok extractor => exact ⟨extractor, rfl⟩

theorem plan_agents_of_merge (id : String) (members : List String)
    (found : agents.find? id = some (.ofMerge id members)) :
    agents.plan "." id = members.mapM (agents.plan ".") >>= fun plans => .ok (.merge id plans) := by
  rw [Configuration.plan_eq acyclic_agents, Configuration.assemble]
  simp only [found, ConfiguredEntry.source, ConfiguredEntry.ofMerge]

theorem plan_agents_bare : agents.plan "." "bare" = .error (.noCheckout "bare") := by
  have found : agents.find? "bare" =
      some { id := "bare", convention := some Scanner.agentConvention } := by decide
  rw [Configuration.plan_eq acyclic_agents, Configuration.assemble]
  simp only [found, ConfiguredEntry.source, Configuration.leaf]
  rfl

theorem after_shared_agents : agents.validate = .ok () ∧
    (agents.plan "." "all").map Plan.leaves = .ok ["a", "b", "a", "b"] ∧
    agents.plan "." "broken" = .error (.noCheckout "bare") ∧
    Shared agents "." (after agents "." ["broken", "all", "a", "broken", "twice", "all"]) := by
  have accepted : agents.validate = .ok () := Configuration.validate_eq_ok_iff.mpr
    ⟨Configuration.wellFormed_iff.mpr ⟨by decide, by decide⟩, acyclic_agents⟩
  rcases plan_agents_of_checkout "a" "a" (by decide) with ⟨x, a⟩
  rcases plan_agents_of_checkout "b" "b" (by decide) with ⟨y, b⟩
  have twice := plan_agents_of_merge "twice" ["a", "b", "a"] (by decide)
  have all := plan_agents_of_merge "all" ["twice", "b"] (by decide)
  have broken := plan_agents_of_merge "broken" ["b", "bare", "a"] (by decide)
  refine ⟨accepted, ?_, ?_, after_shared accepted "." _⟩
  · simp only [all, twice, a, b, List.mapM_cons, List.mapM_nil]
    rfl
  · simp only [broken, b, plan_agents_bare, List.mapM_cons]
    rfl

end History
end Instances
end SchemaTrace
