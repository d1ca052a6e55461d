import SchemaTrace.Proofs.Implementation.Session
import SchemaTrace.Proofs.Reference.Extend

/-! Trees of merged implementations. What a tree gives is what its leaves give, from left to right,
however they are grouped. This is so for any leaves, and for the extractors of a session. -/

namespace SchemaTrace

namespace Implementation

mutual

def leaves : Implementation → List Nat
  | .single slot _ => [slot]
  | .merged children => leavesOf children

def leavesOf : List Implementation → List Nat
  | [] => []
  | child :: rest => leaves child ++ leavesOf rest

end

section Trees

variable {m : Type → Type} [Monad m]

mutual

def gather (leaf : Nat → m ReferenceMap) : Implementation → m ReferenceMap
  | .single slot _ => leaf slot
  | .merged children => gatherFrom leaf .empty children

def gatherFrom (leaf : Nat → m ReferenceMap) (found : ReferenceMap) :
    List Implementation → m ReferenceMap
  | [] => return found
  | child :: rest => do
    let more ← gather leaf child
    gatherFrom leaf (found.extend more) rest

end

mutual

def firstSource (leaf : Nat → m (Option PinnedRepository)) :
    Implementation → m (Option PinnedRepository)
  | .single slot _ => leaf slot
  | .merged children => firstSourceOf leaf children

def firstSourceOf (leaf : Nat → m (Option PinnedRepository)) :
    List Implementation → m (Option PinnedRepository)
  | [] => return none
  | child :: rest => do
    match ← firstSource leaf child with
    | some repository => return some repository
    | none => firstSourceOf leaf rest

end

variable [LawfulMonad m]

theorem findSomeM?_append {α β : Type} (f : α → m (Option β)) (list others : List α) :
    (list ++ others).findSomeM? f = (do
      match ← list.findSomeM? f with
      | some b => return some b
      | none => others.findSomeM? f) := by
  induction list with
  | nil => simp [List.findSomeM?]
  | cons a rest ih =>
    rw [List.cons_append, List.findSomeM?, List.findSomeM?, bind_assoc]
    congr 1
    funext found
    cases found with
    | none => exact ih
    | some b => simp

mutual

theorem gather_eq (leaf : Nat → m ReferenceMap) : ∀ i : Implementation,
    gather leaf i = List.foldl ReferenceMap.extend .empty <$> i.leaves.mapM leaf
  | .single slot _ => by
    rw [gather, leaves, List.mapM_cons, List.mapM_nil]
    simp [ReferenceMap.empty_extend]
  | .merged children => by rw [gather, leaves, gatherFrom_eq leaf .empty children]

theorem gatherFrom_eq (leaf : Nat → m ReferenceMap) (found : ReferenceMap) :
    ∀ children : List Implementation, gatherFrom leaf found children =
      List.foldl ReferenceMap.extend found <$> (leavesOf children).mapM leaf
  | [] => by rw [gatherFrom, leavesOf, List.mapM_nil, map_pure, List.foldl_nil]
  | child :: rest => by
    rw [gatherFrom, leavesOf, List.mapM_append, gather_eq leaf child]
    simp [gatherFrom_eq leaf _ rest, ReferenceMap.extend_foldl_extend]

end

mutual

theorem firstSource_eq (leaf : Nat → m (Option PinnedRepository)) : ∀ i : Implementation,
    firstSource leaf i = i.leaves.findSomeM? leaf
  | .single slot _ => by
    rw [firstSource, leaves, List.findSomeM?]
    refine (bind_pure (leaf slot)).symm.trans (bind_congr fun found => ?_)
    cases found <;> rfl
  | .merged children => by rw [firstSource, leaves, firstSourceOf_eq leaf children]

theorem firstSourceOf_eq (leaf : Nat → m (Option PinnedRepository)) :
    ∀ children : List Implementation,
      firstSourceOf leaf children = (leavesOf children).findSomeM? leaf
  | [] => by rw [firstSourceOf, leavesOf, List.findSomeM?]
  | child :: rest => by
    rw [firstSourceOf, leavesOf, findSomeM?_append, firstSource_eq leaf child]
    refine bind_congr fun found => ?_
    cases found with
    | none => exact firstSourceOf_eq leaf rest
    | some repository => rfl

end

end Trees

/-- What a tree gives whose leaves give references or fail: the references of all leaves, from left
to right, or the error of the first leaf that fails. -/
structure Gathers (slots : List Nat) (leaf : Nat → Except Error ReferenceMap)
    (result : Except Error ReferenceMap) : Prop where
  ok_iff : (∃ found, result = .ok found) ↔ ∀ slot ∈ slots, ∃ part, leaf slot = .ok part
  error_iff : ∀ e, result = .error e ↔ ∃ before slot after, slots = before ++ slot :: after ∧
    (∀ other ∈ before, ∃ part, leaf other = .ok part) ∧ leaf slot = .error e
  keys : ∀ found, result = .ok found → ∀ kind name, name ∈ (found.get kind).keys ↔
    ∃ slot ∈ slots, ∃ part, leaf slot = .ok part ∧ name ∈ (part.get kind).keys
  lists : ∀ found parts, result = .ok found → slots.mapM leaf = .ok parts →
    ∀ kind name, found.about kind name = parts.flatMap fun part => part.about kind name

/-- What a tree gives whose leaves may have a repository: the first one, if no leaf before it
fails. -/
structure FindsFirst (slots : List Nat) (leaf : Nat → Except Error (Option PinnedRepository))
    (result : Except Error (Option PinnedRepository)) : Prop where
  found_iff : ∀ repository, result = .ok (some repository) ↔
    ∃ before slot after, slots = before ++ slot :: after ∧
      (∀ other ∈ before, leaf other = .ok none) ∧ leaf slot = .ok (some repository)
  error_iff : ∀ e, result = .error e ↔ ∃ before slot after, slots = before ++ slot :: after ∧
    (∀ other ∈ before, leaf other = .ok none) ∧ leaf slot = .error e
  none_iff : result = .ok none ↔ ∀ slot ∈ slots, leaf slot = .ok none

theorem gathers_gather (leaf : Nat → Except Error ReferenceMap) (i : Implementation) :
    Gathers i.leaves leaf (gather leaf i) := by
  rw [gather_eq]
  constructor
  · rw [← Except.exists_mapM_eq_ok_iff]
    simp only [Except.map_eq_ok_iff]
    constructor
    · rintro ⟨_, parts, each, -⟩
      exact ⟨parts, each⟩
    · rintro ⟨parts, each⟩
      exact ⟨_, parts, each, rfl⟩
  · intro e
    rw [Except.map_eq_error_iff, Except.mapM_eq_error_iff]
  · intro found given kind name
    rcases Except.map_eq_ok_iff.mp given with ⟨parts, each, rfl⟩
    rw [ReferenceMap.mem_keys_foldl_extend, or_iff_right ReferenceMap.mem_keys_empty]
    simp only [Except.mem_mapM_iff each]
    constructor
    · rintro ⟨part, ⟨slot, inside, here⟩, known⟩
      exact ⟨slot, inside, part, here, known⟩
    · rintro ⟨slot, inside, part, here, known⟩
      exact ⟨part, ⟨slot, inside, here⟩, known⟩
  · intro found parts given each kind name
    rw [each] at given
    obtain rfl := Except.ok.inj given
    rw [ReferenceMap.about_foldl_extend, ReferenceMap.about_empty, List.nil_append]

theorem findsFirst_firstSource (leaf : Nat → Except Error (Option PinnedRepository))
    (i : Implementation) : FindsFirst i.leaves leaf (firstSource leaf i) := by
  rw [firstSource_eq]
  exact {
    found_iff := fun repository => Except.findSomeM?_eq_iff (by simp)
    error_iff := fun e => Except.findSomeM?_eq_iff (by simp)
    none_iff := Except.findSomeM?_eq_ok_none_iff }

variable {providers : Nat → Provider} {schema : Schema}

mutual

theorem references_eq_gather : ∀ i : Implementation, references providers schema i =
    gather (fun slot => onSlot slot (Extractor.references (providers slot) schema)) i
  | .single _ _ => by rw [references, gather]
  | .merged children => by rw [references, gather, referencesOf_eq_gatherFrom children]

theorem referencesOf_eq_gatherFrom : ∀ (children : List Implementation) (found : ReferenceMap),
    referencesOf providers schema found children =
      gatherFrom (fun slot => onSlot slot (Extractor.references (providers slot) schema)) found
        children
  | [], _ => by rw [referencesOf, gatherFrom]
  | child :: rest, found => by
    rw [referencesOf, gatherFrom, references_eq_gather child]
    simp only [referencesOf_eq_gatherFrom rest]

end

mutual

theorem dataSource_eq_firstSource : ∀ i : Implementation, dataSource providers i =
    firstSource (fun slot => some <$> onSlot slot (Extractor.dataSource (providers slot))) i
  | .single _ _ => by rw [dataSource, firstSource, map_eq_pure_bind]
  | .merged children => by rw [dataSource, firstSource, firstDataSource_eq_firstSourceOf children]

theorem firstDataSource_eq_firstSourceOf : ∀ children : List Implementation,
    firstDataSource providers children =
      firstSourceOf (fun slot => some <$> onSlot slot (Extractor.dataSource (providers slot)))
        children
  | [] => by rw [firstDataSource, firstSourceOf]
  | child :: rest => by
    rw [firstDataSource, firstSourceOf, dataSource_eq_firstSource child]
    refine bind_congr fun found => ?_
    cases found with
    | none => exact firstDataSource_eq_firstSourceOf rest
    | some repository => rfl

end

def sources (providers : Nat → Provider) (s : Extractors) (slot : Nat) :
    Except Error (Option PinnedRepository) :=
  some <$> outcome (onSlot slot (Extractor.dataSource (providers slot))) s

theorem steady_mapM (slots : List Nat) : Steady providers schema
    (slots.mapM fun slot => onSlot slot (Extractor.references (providers slot) schema)) := by
  induction slots with
  | nil => exact steady_pure []
  | cons slot rest ih =>
    rw [List.mapM_cons]
    exact (steady_onSlot slot).bind fun _ => ih.bind fun _ => steady_pure _

theorem outcome_mapM (slots : List Nat) (s : Extractors) :
    outcome (slots.mapM fun slot => onSlot slot (Extractor.references (providers slot) schema)) s =
      slots.mapM (answers providers schema s) := by
  induction slots with
  | nil => rfl
  | cons slot rest ih =>
    rw [List.mapM_cons, List.mapM_cons, (steady_onSlot slot).outcome_bind fun found =>
      (steady_mapM rest).bind fun more => steady_pure (found :: more)]
    refine bind_congr fun found => ?_
    rw [(steady_mapM rest).outcome_bind fun more => steady_pure (found :: more), ih]
    rfl

theorem outcome_references (i : Implementation) (s : Extractors) :
    outcome (references providers schema i) s = gather (answers providers schema s) i := by
  rw [references_eq_gather, gather_eq, gather_eq, outcome_map, outcome_mapM]

theorem outcome_dataSource (s : Extractors) (i : Implementation) :
    outcome (dataSource providers i) s = firstSource (sources providers s) i := by
  rw [dataSource_eq_firstSource, firstSource_eq, firstSource_eq]
  cases i.leaves with
  | nil => rfl
  | cons slot rest =>
    rw [List.findSomeM?, List.findSomeM?, outcome_bind, outcome_map, ← sources]
    cases given : sources providers s slot with
    | error e => rfl
    | ok found =>
      rcases Except.map_eq_ok_iff.mp given with ⟨repository, -, rfl⟩
      rfl

/-- A tree of merged implementations gives what its leaves give, from left to right. This is so for
any answers of the leaves, and for the extractors of a session, whose steps the tree takes. -/
theorem flatten_leaves (i : Implementation) :
    ((∀ leaf, Gathers i.leaves leaf (gather leaf i)) ∧
      ∀ leaf, FindsFirst i.leaves leaf (firstSource leaf i)) ∧
    ∀ providers : Nat → Provider,
      (∀ schema, references providers schema i =
          gather (fun slot => onSlot slot (Extractor.references (providers slot) schema)) i ∧
        ∀ s, Gathers i.leaves (answers providers schema s)
          (outcome (references providers schema i) s)) ∧
      dataSource providers i =
        firstSource (fun slot => some <$> onSlot slot (Extractor.dataSource (providers slot))) i ∧
      ∀ s, FindsFirst i.leaves (sources providers s) (outcome (dataSource providers i) s) := by
  constructor
  · exact ⟨fun leaf => gathers_gather leaf i, fun leaf => findsFirst_firstSource leaf i⟩
  · intro providers
    refine ⟨fun schema => ⟨references_eq_gather i, ?_⟩, dataSource_eq_firstSource i, ?_⟩
    · intro s
      rw [outcome_references]
      exact gathers_gather _ i
    · intro s
      rw [outcome_dataSource]
      exact findsFirst_firstSource _ i

/-- A leaf without a repository is passed over, and behind the first repository none is asked. -/
example (e : Error) (repository : PinnedRepository) :
    firstSource (m := Except Error)
      (fun slot => [.ok none, .ok (some repository)].getD slot (.error e))
      (.merged [.merged [.single 0 "a"], .single 1 "b", .single 2 "c"]) =
    .ok (some repository) := rfl

end Implementation
end SchemaTrace
