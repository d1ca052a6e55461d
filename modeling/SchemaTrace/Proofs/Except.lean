import Mathlib.Data.List.Forall2

/-! Steps that may fail, one after the other. -/

namespace Except

variable {ε α β : Type}

theorem bind_eq_ok_iff {x : Except ε α} {f : α → Except ε β} {b : β} :
    (x >>= f) = .ok b ↔ ∃ a, x = .ok a ∧ f a = .ok b := by
  cases x with
  | error e => simp [bind, Except.bind]
  | ok a => simp [bind, Except.bind]

theorem check_bind_eq_ok_iff {check : Except ε Unit} {x : Except ε β} {b : β} :
    (check >>= fun _ => x) = .ok b ↔ check = .ok () ∧ x = .ok b := by
  rw [bind_eq_ok_iff]
  constructor
  · rintro ⟨_, passed, ok⟩
    exact ⟨passed, ok⟩
  · rintro ⟨passed, ok⟩
    exact ⟨(), passed, ok⟩

theorem bind_eq_error_iff {x : Except ε α} {f : α → Except ε β} {e : ε} :
    (x >>= f) = .error e ↔ x = .error e ∨ ∃ a, x = .ok a ∧ f a = .error e := by
  cases x with
  | error e => simp [bind, Except.bind]
  | ok a => simp [bind, Except.bind]

theorem map_eq_ok_iff {x : Except ε α} {f : α → β} {b : β} :
    f <$> x = .ok b ↔ ∃ a, x = .ok a ∧ f a = b := by
  cases x <;> simp [Functor.map, Except.map]

theorem exists_map_eq_ok_iff {x : Except ε α} {f : α → β} :
    (∃ b, f <$> x = .ok b) ↔ ∃ a, x = .ok a := by
  cases x <;> simp [Functor.map, Except.map]

theorem map_eq_error_iff {x : Except ε α} {f : α → β} {e : ε} :
    f <$> x = .error e ↔ x = .error e := by
  cases x <;> simp [Functor.map, Except.map]

theorem mapM_eq_ok {f : α → Except ε β} {g : α → β} {list : List α}
    (given : ∀ a ∈ list, f a = .ok (g a)) : list.mapM f = .ok (list.map g) := by
  induction list with
  | nil => rfl
  | cons a rest ih =>
    have first := given a List.mem_cons_self
    have others := ih fun b member => given b (List.mem_cons_of_mem a member)
    rw [List.mapM_cons, first, others]
    rfl

theorem mapM_eq_ok_iff {f : α → Except ε β} {list : List α} {results : List β} :
    list.mapM f = .ok results ↔ List.Forall₂ (fun a b => f a = .ok b) list results := by
  induction list generalizing results with
  | nil =>
    rw [List.mapM_nil, List.forall₂_nil_left_iff]
    exact ⟨fun eq => (Except.ok.inj eq).symm, fun eq => eq ▸ rfl⟩
  | cons a rest ih =>
    rw [List.mapM_cons, bind_eq_ok_iff, List.forall₂_cons_left_iff]
    simp only [bind_eq_ok_iff, ih]
    constructor
    · rintro ⟨b, first, later, others, eq⟩
      exact ⟨b, later, first, others, (Except.ok.inj eq).symm⟩
    · rintro ⟨b, later, first, others, rfl⟩
      exact ⟨b, first, later, others, rfl⟩

theorem exists_first_cons_iff {P Q : α → Prop} {a : α} {rest : List α} :
    (∃ before b after, a :: rest = before ++ b :: after ∧ (∀ x ∈ before, P x) ∧ Q b) ↔
      Q a ∨ P a ∧ ∃ before b after, rest = before ++ b :: after ∧ (∀ x ∈ before, P x) ∧ Q b := by
  constructor
  · rintro ⟨before, b, after, split, passed, here⟩
    cases before with
    | nil => exact .inl ((List.cons.inj split).1 ▸ here)
    | cons x before =>
      rcases List.cons.inj split with ⟨rfl, rfl⟩
      rcases List.forall_mem_cons.mp passed with ⟨first, others⟩
      exact .inr ⟨first, before, b, after, rfl, others, here⟩
  · rintro (here | ⟨first, before, b, after, rfl, others, here⟩)
    · exact ⟨[], a, rest, rfl, by simp, here⟩
    · exact ⟨a :: before, b, after, rfl, List.forall_mem_cons.mpr ⟨first, others⟩, here⟩

theorem mapM_eq_error_iff {f : α → Except ε β} {list : List α} {e : ε} :
    list.mapM f = .error e ↔ ∃ before a after, list = before ++ a :: after ∧
      (∀ x ∈ before, ∃ b, f x = .ok b) ∧ f a = .error e := by
  induction list with
  | nil => simp [pure, Except.pure]
  | cons a rest ih =>
    rw [List.mapM_cons, exists_first_cons_iff, ← ih, bind_eq_error_iff]
    simp only [bind_eq_error_iff, exists_and_right, pure, Except.pure, reduceCtorEq, and_false,
      exists_false, or_false]

theorem findSomeM?_eq_ok_none_iff {f : α → Except ε (Option β)} {list : List α} :
    list.findSomeM? f = .ok none ↔ ∀ a ∈ list, f a = .ok none := by
  induction list with
  | nil => simp [List.findSomeM?, pure, Except.pure]
  | cons a rest ih =>
    rw [List.findSomeM?, bind_eq_ok_iff, List.forall_mem_cons, ← ih]
    constructor
    · rintro ⟨_ | b, here, later⟩
      · exact ⟨here, later⟩
      · cases later
    · rintro ⟨here, later⟩
      exact ⟨none, here, later⟩

theorem findSomeM?_eq_iff {f : α → Except ε (Option β)} {list : List α}
    {result : Except ε (Option β)} (decides : result ≠ .ok none) :
    list.findSomeM? f = result ↔ ∃ before a after, list = before ++ a :: after ∧
      (∀ x ∈ before, f x = .ok none) ∧ f a = result := by
  induction list with
  | nil => simpa [List.findSomeM?, pure, Except.pure] using decides.symm
  | cons a rest ih =>
    rw [List.findSomeM?, exists_first_cons_iff, ← ih]
    rcases f a with e | _ | b
    · simp [bind, Except.bind]
    · simpa [bind, Except.bind] using fun same => absurd same.symm decides
    · simp [bind, Except.bind, pure, Except.pure]

theorem mem_mapM_iff {f : α → Except ε β} {list : List α} {results : List β}
    (ok : list.mapM f = .ok results) (b : β) : b ∈ results ↔ ∃ a ∈ list, f a = .ok b := by
  induction mapM_eq_ok_iff.mp ok with
  | nil => simp
  | cons here others ih => simp [here, ih (mapM_eq_ok_iff.mpr others), eq_comm]

theorem exists_of_mapM_eq_ok {f : α → Except ε β} {list : List α} {results : List β}
    (ok : list.mapM f = .ok results) : ∀ a ∈ list, ∃ b, f a = .ok b := by
  have each := mapM_eq_ok_iff.mp ok
  exact ((List.forall₂_and_left _ _).mp (each.imp fun a b given => ⟨⟨b, given⟩, given⟩)).1

theorem exists_mapM_eq_ok {f : α → Except ε β} {R : α → β → Prop} {list : List α}
    (each : ∀ a ∈ list, ∃ b, f a = .ok b ∧ R a b) :
    ∃ results, list.mapM f = .ok results ∧ List.Forall₂ R list results := by
  induction list with
  | nil => exact ⟨[], rfl, .nil⟩
  | cons a rest ih =>
    obtain ⟨b, first, related⟩ := each a List.mem_cons_self
    obtain ⟨results, others, all⟩ := ih fun c member => each c (List.mem_cons_of_mem a member)
    refine ⟨b :: results, ?_, .cons related all⟩
    rw [List.mapM_cons, first, others]
    rfl

theorem exists_mapM_eq_ok_iff {f : α → Except ε β} {list : List α} :
    (∃ results, list.mapM f = .ok results) ↔ ∀ a ∈ list, ∃ b, f a = .ok b := by
  constructor
  · rintro ⟨results, ok⟩
    exact exists_of_mapM_eq_ok ok
  · intro each
    have given : ∀ a ∈ list, ∃ b, f a = .ok b ∧ True := by simpa using each
    rcases exists_mapM_eq_ok given with ⟨results, ok, -⟩
    exact ⟨results, ok⟩

end Except
