import Mathlib.Data.List.Pairwise
import SchemaTrace.Proofs.Configuration.Plan
import SchemaTrace.Proofs.Implementation.Leaves

/-! Instances of a session as a state: what a step of building returns and leaves behind, the
recursion of a lookup through its merges, and the invariant every lookup keeps. -/

namespace SchemaTrace

def Implementation.slot? : Implementation → Option Nat
  | .single slot _ => some slot
  | .merged _ => none

namespace Instances

open Relation (ReflTransGen TransGen)

section Runs

variable {α β : Type} {step : Building α} {next : α → Building β} {s s' : Instances}

def run (step : Building α) (s : Instances) : Except ConfigurationError α × Instances :=
  (ExceptT.run step).run s

theorem run_bind_of_ok {a : α} (ran : run step s = (.ok a, s')) :
    run (step >>= next) s = run (next a) s' := by
  unfold run at *
  simp only [ExceptT.run_bind, StateT.run_bind, ran]
  rfl

theorem run_bind_of_error {error : ConfigurationError} (ran : run step s = (.error error, s')) :
    run (step >>= next) s = (.error error, s') := by
  unfold run at *
  simp only [ExceptT.run_bind, StateT.run_bind, ran]
  rfl

theorem run_get_bind (next : Instances → Building β) (s : Instances) :
    run (get >>= next) s = run (next s) s := rfl

end Runs

variable {c : Configuration} {base : String} {s s' : Instances} {id : String}
  {i : Implementation}

theorem run_keep (id : String) (i : Implementation) (s : Instances) :
    run (keep id i) s = (.ok i, { s with built := s.built ++ [(id, i)] }) := rfl

def scan (id root : String) (extractor : Extractor) : Building Implementation := do
  keep id (← occupy root extractor)

theorem run_scan (id root : String) (extractor : Extractor) (s : Instances) :
    run (scan id root extractor) s =
      let i := .single s.extractors.length extractor.displayName
      (.ok i, ⟨s.built ++ [(id, i)], s.extractors ++ [extractor], s.roots ++ [root]⟩) := rfl

def remembered (id : String) (build : Building Implementation) : Building Implementation := do
  match (← get).built.lookup id with
  | some i => return i
  | none => build

theorem buildAll_eq_mapM {above : List String} (ids : List String) :
    buildAll c base above ids = ids.mapM (buildFrom c base above) := by
  induction ids with
  | nil => rw [buildAll, List.mapM_nil]
  | cons id rest ih => rw [buildAll, List.mapM_cons, ih]

theorem buildFrom_of_fresh {above : List String} (fresh : id ∉ above) :
    buildFrom c base above id =
      remembered id (c.assemble base scan (fun id members => keep id (.merged members))
        (buildFrom c base (above ++ [id])) id) := by
  rw [buildFrom, remembered]
  refine bind_congr fun s => ?_
  cases s.built.lookup id with
  | some i => rfl
  | none =>
    simp only
    rw [dif_neg fresh, Configuration.assemble]
    split
    · next missing => rw [missing]
    · next e found =>
      simp only [found]
      rcases e.source with error | convention | members
      · rfl
      · dsimp only
        cases c.leaf base e convention <;> rfl
      · simp only [buildAll_eq_mapM]

theorem lookup_eq (acyclic : c.Acyclic) (id : String) :
    lookup c base id =
      remembered id (c.assemble base scan (fun id members => keep id (.merged members))
        (lookup c base) id) :=
  Configuration.eq_assemble acyclic remembered (fun _ _ => buildFrom_of_fresh) id

def ids (s : Instances) : List String := s.built.map (·.1)

def owner? (s : Instances) (slot : Nat) : Option String :=
  (s.built.find? fun b => b.2.slot? = some slot).map (·.1)

structure Extends (s s' : Instances) : Prop where
  built : s.built <+: s'.built
  extractors : s.extractors <+: s'.extractors
  roots : s.roots <+: s'.roots

/-- What the instance of an entry is made of: its own extractor in a slot, seen from its checkout,
or the instances of the entries it merges. -/
inductive Made (c : Configuration) (base : String) (s : Instances) (id : String) :
    Implementation → Prop
  | scan {e : ConfiguredEntry} {convention : Convention} {root : String} {extractor : Extractor}
    {slot : Nat} (found : c.find? id = some e) (source : e.source = .ok (.convention convention))
    (leaf : c.leaf base e convention = .ok (root, extractor))
    (held : s.extractors[slot]? = some extractor) (placed : s.roots[slot]? = some root) :
    Made c base s id (.single slot extractor.displayName)
  | merge {e : ConfiguredEntry} {members : List String} {children : List Implementation}
    (found : c.find? id = some e) (source : e.source = .ok (.merge members))
    (named : List.Forall₂ (fun member child => (member, child) ∈ s.built) members children) :
    Made c base s id (.merged children)

/-- No id has two instances, no slot belongs to two of them, and each is made of what is there. -/
structure Sound (c : Configuration) (base : String) (s : Instances) : Prop where
  once : s.ids.Nodup
  made : ∀ id i, (id, i) ∈ s.built → Made c base s id i
  slots : s.built.filterMap (fun b => b.2.slot?) = List.range s.extractors.length
  roots : s.roots.length = s.extractors.length

theorem getElem?_mono {α : Type} {list others : List α} (starts : list <+: others) {n : Nat}
    {a : α} (held : list[n]? = some a) : others[n]? = some a := by
  rcases starts with ⟨more, rfl⟩
  rwa [List.getElem?_append_left (List.getElem?_eq_some_iff.mp held).1]

namespace Extends

theorem refl (s : Instances) : s.Extends s :=
  ⟨List.prefix_refl _, List.prefix_refl _, List.prefix_refl _⟩

theorem trans {s'' : Instances} (first : s.Extends s') (second : s'.Extends s'') : s.Extends s'' :=
  ⟨first.built.trans second.built, first.extractors.trans second.extractors,
    first.roots.trans second.roots⟩

theorem mem (ext : s.Extends s') {b : String × Implementation} (inside : b ∈ s.built) :
    b ∈ s'.built :=
  ext.built.subset inside

theorem made (ext : s.Extends s') (made : Made c base s id i) : Made c base s' id i := by
  cases made with
  | scan found source leaf held placed =>
    exact .scan found source leaf (getElem?_mono ext.extractors held)
      (getElem?_mono ext.roots placed)
  | merge found source named =>
    exact .merge found source (named.imp fun _ _ inside => ext.mem inside)

end Extends

theorem sound_empty : Sound c base {} where
  once := .nil
  made id i inside := by cases inside
  slots := rfl
  roots := rfl

theorem mem_built_of_lookup (known : s.built.lookup id = some i) : (id, i) ∈ s.built := by
  rcases List.lookup_eq_some_iff.mp known with ⟨before, after, eq, -⟩
  rw [eq]
  simp

theorem not_mem_ids_of_lookup (missing : s.built.lookup id = none) : id ∉ s.ids := by
  intro inside
  rcases List.mem_map.mp inside with ⟨b, member, rfl⟩
  simpa using List.lookup_eq_none_iff.mp missing b member

namespace Sound

variable {b b' : String × Implementation} {slot : Nat} {name : String}

theorem lookup_eq_some (sound : Sound c base s) (inside : (id, i) ∈ s.built) :
    s.built.lookup id = some i := by
  cases known : s.built.lookup id with
  | none => exact absurd (List.mem_map_of_mem inside) (not_mem_ids_of_lookup known)
  | some other =>
    have same := List.inj_on_of_nodup_map sound.once (mem_built_of_lookup known) inside rfl
    rw [(Prod.mk.inj same).2]

theorem eq_of_slot (sound : Sound c base s) (inside : b ∈ s.built) (inside' : b' ∈ s.built)
    (here : b.2.slot? = some slot) (there : b'.2.slot? = some slot) : b = b' := by
  have nodup : (s.built.filterMap fun b => b.2.slot?).Nodup := sound.slots ▸ List.nodup_range
  have symm : Std.Symm fun b b' : String × Implementation =>
      ∀ slot, b.2.slot? = some slot → b'.2.slot? = some slot → b = b' :=
    ⟨fun _ _ same slot there here => (same slot here there).symm⟩
  have apart := (List.pairwise_filterMap.mp nodup).imp
    fun {b b'} differ slot here there => (absurd rfl (differ slot here slot there) : b = b')
  exact apart.forall_of_forall (fun _ _ _ _ _ => rfl) inside inside' slot here there

theorem owner?_of_mem (sound : Sound c base s) (inside : (id, .single slot name) ∈ s.built) :
    s.owner? slot = some id := by
  cases owner : s.built.find? fun b => b.2.slot? = some slot with
  | none =>
    have never := List.find?_eq_none.mp owner _ inside
    simp [Implementation.slot?] at never
  | some b =>
    have same := sound.eq_of_slot (List.mem_of_find?_eq_some owner) inside
      (by simpa using List.find?_some owner) rfl
    rw [owner?, owner, same]
    rfl

end Sound

end Instances
end SchemaTrace
