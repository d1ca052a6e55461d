import SchemaTrace.Configuration.Instances
import SchemaTrace.Proofs.Configuration.Validity

/-! What is put together from the entries of a configuration. Plans and instances follow the same
recursion, the one spelling an entry out each time it is named, the other building it once. Where
no entry leads back to itself, the way to an entry makes no difference to either. -/

namespace SchemaTrace

theorem mapM_congr_left {m : Type → Type} [Monad m] [LawfulMonad m] {α β : Type}
    {f g : α → m β} {list : List α} (same : ∀ a ∈ list, f a = g a) :
    list.mapM f = list.mapM g := by
  induction list with
  | nil => rw [List.mapM_nil, List.mapM_nil]
  | cons a rest ih =>
    rw [List.mapM_cons, List.mapM_cons, same a List.mem_cons_self,
      ih fun b listed => same b (List.mem_cons_of_mem a listed)]

namespace Configuration

section Assembly

variable {m : Type → Type} [Monad m] [MonadExceptOf ConfigurationError m] {α : Type}

/-- One step of the recursion: what is made of an entry, from its checkout and extractor or from
what is made of the entries it merges. -/
def assemble (c : Configuration) (base : String) (scan : String → String → Extractor → m α)
    (merge : String → List α → m α) (member : String → m α) (id : String) : m α :=
  match c.find? id with
  | none => throw (.unknownId id c.ids)
  | some e =>
    match e.source with
    | .error error => throw error
    | .ok (.convention convention) =>
      match c.leaf base e convention with
      | .error error => throw error
      | .ok (root, extractor) => scan id root extractor
    | .ok (.merge members) => members.mapM member >>= merge id

variable [LawfulMonad m] {c : Configuration} {base : String}
  {scan : String → String → Extractor → m α} {merge : String → List α → m α} {f g : String → m α}
  {make : List String → String → m α} {above others : List String}
  {id member : String} {e : ConfiguredEntry} {members : List String}

theorem merges_of_source (found : c.find? id = some e) (source : e.source = .ok (.merge members))
    (listed : member ∈ members) : c.Merges id member := by
  have same : e.id = id := by simpa using List.find?_some found
  have given := (ConfiguredEntry.source_eq_merge_iff.mp source).2.2
  exact ⟨e, List.mem_of_find?_eq_some found, same, members, given, listed⟩

theorem assemble_congr (same : ∀ member, c.Merges id member → f member = g member) :
    c.assemble base scan merge f id = c.assemble base scan merge g id := by
  unfold assemble
  split
  · rfl
  · next e found =>
    split
    · rfl
    · rfl
    · next members source =>
      rw [mapM_congr_left fun member listed => same member (merges_of_source found source listed)]

theorem clear_of_acyclic (acyclic : c.Acyclic) : c.Clear [] id :=
  fun other _ => ⟨List.not_mem_nil, acyclic other⟩

/-- A recursion that keeps the way to an entry does not depend on it, where no entry leads back to
itself. Before the recursion goes down, `known` may answer. -/
theorem eq_of_clear (acyclic : c.Acyclic) (known : String → m α → m α)
    (steps : ∀ above id, id ∉ above →
      make above id = known id (c.assemble base scan merge (make (above ++ [id])) id))
    (clear : c.Clear above id) (clear' : c.Clear others id) :
    make above id = make others id := by
  -- The induction is along merges, which end where no entry leads back to itself.
  induction id using acyclic.induction generalizing above others with
  | step id ih =>
    rw [steps above id clear.fresh, steps others id clear'.fresh]
    congr 1
    apply assemble_congr
    intro member merges
    exact ih member merges ((clear_iff clear.fresh).mp clear member merges)
      ((clear_iff clear'.fresh).mp clear' member merges)

theorem eq_assemble (acyclic : c.Acyclic) (known : String → m α → m α)
    (steps : ∀ above id, id ∉ above →
      make above id = known id (c.assemble base scan merge (make (above ++ [id])) id))
    (id : String) : make [] id = known id (c.assemble base scan merge (make []) id) := by
  rw [steps [] id List.not_mem_nil]
  congr 1
  apply assemble_congr
  intro member merges
  exact eq_of_clear acyclic known steps
    ((clear_iff List.not_mem_nil).mp (clear_of_acyclic acyclic) member merges)
    (clear_of_acyclic acyclic)

end Assembly

variable {c : Configuration} {base : String} {above : List String} {id : String}

theorem planAll_eq_mapM (ids : List String) :
    c.planAll base above ids = ids.mapM (c.planFrom base above) := by
  induction ids with
  | nil => rw [planAll, List.mapM_nil]; rfl
  | cons id rest ih => rw [planAll, List.mapM_cons, ih]

theorem planFrom_of_fresh (fresh : id ∉ above) :
    c.planFrom base above id =
      c.assemble base (fun id root extractor => .ok (.scan id root extractor))
        (fun id members => .ok (.merge id members)) (c.planFrom base (above ++ [id])) id := by
  rw [planFrom, dif_neg fresh, assemble]
  split
  · next missing =>
    rw [missing]
    rfl
  · next e found =>
    simp only [found]
    rcases e.source with error | convention | members
    · rfl
    · dsimp only
      cases c.leaf base e convention <;> rfl
    · simp only [planAll_eq_mapM]
      rfl

theorem plan_eq (acyclic : c.Acyclic) (id : String) :
    c.plan base id =
      c.assemble base (fun id root extractor => .ok (.scan id root extractor))
        (fun id members => .ok (.merge id members)) (c.plan base) id :=
  eq_assemble acyclic (fun _ plan => plan) (fun _ _ => planFrom_of_fresh) id

end Configuration
end SchemaTrace
