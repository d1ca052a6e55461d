import Mathlib.Data.List.Basic

/-! Stable sorting by keys. The sorted list is the only one that is in order and holds the elements
of each rank in the order they had before, so sorting commutes with whatever respects the keys. -/

namespace SchemaTrace

variable {α β κ : Type}

/-- Sorts by keys; elements whose keys compare equal keep their order. -/
def sortBy (cmp : κ → κ → Ordering) (key : α → κ) (list : List α) : List α :=
  list.mergeSort fun a b => (cmp (key a) (key b)).isLE

def ofRank (cmp : κ → κ → Ordering) (key : α → κ) (k : κ) (list : List α) : List α :=
  list.filter fun a => (cmp (key a) k).isEq

def InOrder (cmp : κ → κ → Ordering) (key : α → κ) (list : List α) : Prop :=
  list.Pairwise fun a b => (cmp (key a) (key b)).isLE

theorem sortBy_perm (cmp : κ → κ → Ordering) (key : α → κ) (list : List α) :
    (sortBy cmp key list).Perm list :=
  List.mergeSort_perm list _

theorem map_sortBy {cmp : κ → κ → Ordering} {key : α → κ} {key' : β → κ} {f : α → β}
    (kept : ∀ a, key' (f a) = key a) (list : List α) :
    (sortBy cmp key list).map f = sortBy cmp key' (list.map f) := by
  apply List.map_mergeSort
  intro a _ b _
  rw [kept, kept]

theorem ofRank_filter (cmp : κ → κ → Ordering) (key : α → κ) (k : κ) (p : α → Bool)
    (list : List α) : ofRank cmp key k (list.filter p) = (ofRank cmp key k list).filter p := by
  rw [ofRank, ofRank, List.filter_filter, List.filter_filter]
  congr 1
  funext a
  exact Bool.and_comm _ _

theorem ofRank_cons {cmp : κ → κ → Ordering} {key : α → κ} {k : κ} {a : α} (list : List α)
    (same : (cmp (key a) k).isEq = true) :
    ofRank cmp key k (a :: list) = a :: ofRank cmp key k list :=
  List.filter_cons_of_pos same

theorem ofRank_cons_of_ne {cmp : κ → κ → Ordering} {key : α → κ} {k : κ} {a : α} (list : List α)
    (other : ¬(cmp (key a) k).isEq = true) :
    ofRank cmp key k (a :: list) = ofRank cmp key k list :=
  List.filter_cons_of_neg other

theorem ofRank_append (cmp : κ → κ → Ordering) (key : α → κ) (k : κ) (list other : List α) :
    ofRank cmp key k (list ++ other) = ofRank cmp key k list ++ ofRank cmp key k other :=
  List.filter_append ..

theorem mem_ofRank_iff {cmp : κ → κ → Ordering} {key : α → κ} {k : κ} {a : α} {list : List α} :
    a ∈ ofRank cmp key k list ↔ a ∈ list ∧ cmp (key a) k = .eq := by
  rw [ofRank, List.mem_filter, Ordering.isEq_iff_eq_eq]

structure IsTotalPreorder (cmp : κ → κ → Ordering) : Prop where
  refl : ∀ a, cmp a a = .eq
  swap : ∀ a b, cmp b a = (cmp a b).swap
  antisymm : ∀ a b, (cmp a b).isLE = true → (cmp b a).isLE = true → cmp a b = .eq
  trans : ∀ a b c, (cmp a b).isLE = true → (cmp b c).isLE = true → (cmp a c).isLE = true
  total : ∀ a b, (cmp a b).isLE = true ∨ (cmp b a).isLE = true

variable {cmp : κ → κ → Ordering} [Std.TransCmp cmp] {key : α → κ}

theorem isLE_or_isLE (a b : κ) : ((cmp a b).isLE || (cmp b a).isLE) = true := by
  have swapped : cmp a b = (cmp b a).swap := Std.OrientedCmp.eq_swap
  rw [swapped]
  cases cmp b a <;> rfl

theorem eq_of_isLE_of_isLE {a b : κ} (le : (cmp a b).isLE = true) (ge : (cmp b a).isLE = true) :
    cmp a b = .eq := by
  have swapped : cmp b a = (cmp a b).swap := Std.OrientedCmp.eq_swap
  rw [swapped] at ge
  revert le ge
  cases cmp a b <;> simp

theorem isTotalPreorder (cmp : κ → κ → Ordering) [Std.TransCmp cmp] : IsTotalPreorder cmp where
  refl _ := Std.ReflCmp.compare_self
  swap _ _ := Std.OrientedCmp.eq_swap
  antisymm _ _ := eq_of_isLE_of_isLE
  trans _ _ _ := Std.TransCmp.isLE_trans
  total a b := (Bool.or_eq_true _ _).mp (isLE_or_isLE a b)

theorem inOrder_sortBy (list : List α) : InOrder cmp key (sortBy cmp key list) := by
  apply List.pairwise_mergeSort
  · intro a b c
    exact Std.TransCmp.isLE_trans
  · intro a b
    exact isLE_or_isLE (key a) (key b)

theorem ofRank_sortBy (k : κ) (list : List α) :
    ofRank cmp key k (sortBy cmp key list) = ofRank cmp key k list := by
  have level : InOrder cmp key (ofRank cmp key k list) := by
    apply List.pairwise_of_forall_mem_list
    intro a first b second
    have back : cmp k (key b) = .eq := Std.OrientedCmp.eq_symm (mem_ofRank_iff.mp second).2
    have same : cmp (key a) (key b) = .eq := Std.TransCmp.eq_trans (mem_ofRank_iff.mp first).2 back
    rw [same]
    rfl
  have kept : (ofRank cmp key k list).Sublist (sortBy cmp key list) :=
    List.sublist_mergeSort (fun _ _ _ => Std.TransCmp.isLE_trans)
      (fun a b => isLE_or_isLE (key a) (key b)) level List.filter_sublist
  have inside : (ofRank cmp key k list).Sublist (ofRank cmp key k (sortBy cmp key list)) := by
    have filtered := kept.filter fun a => (cmp (key a) k).isEq
    simpa only [ofRank, List.filter_filter, Bool.and_self] using filtered
  have size : (ofRank cmp key k list).length = (ofRank cmp key k (sortBy cmp key list)).length :=
    ((sortBy_perm cmp key list).filter _).length_eq.symm
  exact (inside.eq_of_length size).symm

theorem InOrder.isLE_of_mem {a b : α} {rest : List α} (ordered : InOrder cmp key (a :: rest))
    (member : b ∈ a :: rest) : (cmp (key a) (key b)).isLE = true := by
  rcases List.mem_cons.mp member with rfl | later
  · have self : cmp (key b) (key b) = .eq := Std.ReflCmp.compare_self
    rw [self]
    rfl
  · exact (List.pairwise_cons.mp ordered).1 b later

theorem mem_iff_of_ofRank {list other : List α}
    (same : ∀ k, ofRank cmp key k list = ofRank cmp key k other) (a : α) :
    a ∈ list ↔ a ∈ other := by
  have self : cmp (key a) (key a) = .eq := Std.ReflCmp.compare_self
  have inside : a ∈ ofRank cmp key (key a) list ↔ a ∈ ofRank cmp key (key a) other := by
    rw [same]
  simpa only [mem_ofRank_iff, self, and_true] using inside

/-- Two lists in order that hold the same elements of each rank in the same order are equal. -/
theorem InOrder.eq_of_ofRank {list other : List α} (ordered : InOrder cmp key list)
    (orderedOther : InOrder cmp key other)
    (same : ∀ k, ofRank cmp key k list = ofRank cmp key k other) : list = other := by
  induction list generalizing other with
  | nil =>
    refine (List.eq_nil_iff_forall_not_mem.mpr fun a member => ?_).symm
    exact List.not_mem_nil ((mem_iff_of_ofRank same a).mpr member)
  | cons a rest ih =>
    cases other with
    | nil => exact absurd ((mem_iff_of_ofRank same a).mp List.mem_cons_self) List.not_mem_nil
    | cons b others =>
      -- Each list holds the other's head, so the heads are of one rank, the first of it in both.
      have le := ordered.isLE_of_mem ((mem_iff_of_ofRank same b).mpr List.mem_cons_self)
      have ge := orderedOther.isLE_of_mem ((mem_iff_of_ofRank same a).mp List.mem_cons_self)
      have rank : cmp (key a) (key b) = .eq := eq_of_isLE_of_isLE le ge
      have self : cmp (key b) (key b) = .eq := Std.ReflCmp.compare_self
      have heads := same (key b)
      rw [ofRank_cons rest (by rw [rank]; rfl), ofRank_cons others (by rw [self]; rfl)] at heads
      obtain rfl := (List.cons.inj heads).1
      have tails (k : κ) : ofRank cmp key k rest = ofRank cmp key k others := by
        have whole := same k
        by_cases own : (cmp (key a) k).isEq = true
        · rw [ofRank_cons rest own, ofRank_cons others own] at whole
          exact (List.cons.inj whole).2
        · rwa [ofRank_cons_of_ne rest own, ofRank_cons_of_ne others own] at whole
      rw [ih (List.Pairwise.of_cons ordered) (List.Pairwise.of_cons orderedOther) tails]

theorem sortBy_eq_self {list : List α} (ordered : InOrder cmp key list) :
    sortBy cmp key list = list :=
  (inOrder_sortBy list).eq_of_ofRank ordered fun k => ofRank_sortBy k list

/-- Lists that hold the same elements of each rank in the same order are sorted alike. -/
theorem sortBy_congr {list other : List α}
    (same : ∀ k, ofRank cmp key k list = ofRank cmp key k other) :
    sortBy cmp key list = sortBy cmp key other := by
  apply (inOrder_sortBy list).eq_of_ofRank (inOrder_sortBy other)
  intro k
  rw [ofRank_sortBy, ofRank_sortBy, same]

theorem sortBy_append_sortBy (before list after : List α) :
    sortBy cmp key (before ++ sortBy cmp key list ++ after) =
      sortBy cmp key (before ++ list ++ after) := by
  apply sortBy_congr
  intro k
  simp only [ofRank_append, ofRank_sortBy]

/-- If no rank has elements in two pieces of a list, the pieces may stand in any order without
change to the elements of one rank. -/
theorem ofRank_flatMap_of_perm {f : β → List α} {pieces others : List β}
    (perm : pieces.Perm others)
    (apart : pieces.Pairwise fun x y => ∀ a ∈ f x, ∀ b ∈ f y, cmp (key a) (key b) ≠ .eq) (k : κ) :
    ofRank cmp key k (pieces.flatMap f) = ofRank cmp key k (others.flatMap f) := by
  induction perm with
  | nil => rfl
  | cons x _ ih =>
    rw [List.flatMap_cons, List.flatMap_cons, ofRank_append, ofRank_append,
      ih (List.Pairwise.of_cons apart)]
  | swap x y rest =>
    have differ := (List.pairwise_cons.mp apart).1 x List.mem_cons_self
    have alone : ofRank cmp key k (f x) = [] ∨ ofRank cmp key k (f y) = [] := by
      by_contra both
      obtain ⟨left, right⟩ := not_or.mp both
      obtain ⟨a, inX⟩ := List.exists_mem_of_ne_nil _ left
      obtain ⟨b, inY⟩ := List.exists_mem_of_ne_nil _ right
      have here := mem_ofRank_iff.mp inX
      have there := mem_ofRank_iff.mp inY
      exact differ b there.1 a here.1
        (Std.TransCmp.eq_trans there.2 (Std.OrientedCmp.eq_symm here.2))
    simp only [List.flatMap_cons, ofRank_append]
    rcases alone with none | none <;> simp [none]
  | trans first _ ih ih' =>
    have symm {x y : β} (apart : ∀ a ∈ f x, ∀ b ∈ f y, cmp (key a) (key b) ≠ .eq) :
        ∀ b ∈ f y, ∀ a ∈ f x, cmp (key b) (key a) ≠ .eq :=
      fun b inY a inX same => apart a inX b inY (Std.OrientedCmp.eq_symm same)
    rw [ih apart, ih' ((first.pairwise_iff symm).mp apart)]

/-- One list holds the elements of another one in order, those of equal rank as they stood. -/
structure IsStableSort (cmp : κ → κ → Ordering) (key : α → κ) (list sorted : List α) : Prop where
  perm : sorted.Perm list
  inOrder : InOrder cmp key sorted
  stable : ∀ k, ofRank cmp key k sorted = ofRank cmp key k list

theorem isStableSort_iff {list sorted : List α} :
    IsStableSort cmp key list sorted ↔ sorted = sortBy cmp key list := by
  constructor
  · intro isSort
    apply isSort.inOrder.eq_of_ofRank (inOrder_sortBy list)
    intro k
    rw [isSort.stable, ofRank_sortBy]
  · rintro rfl
    exact ⟨sortBy_perm cmp key list, inOrder_sortBy list, fun k => ofRank_sortBy k list⟩

theorem filter_sortBy (p : α → Bool) (list : List α) :
    (sortBy cmp key list).filter p = sortBy cmp key (list.filter p) := by
  have ordered : InOrder cmp key ((sortBy cmp key list).filter p) :=
    (inOrder_sortBy list).filter p
  apply ordered.eq_of_ofRank (inOrder_sortBy _)
  intro k
  calc
    ofRank cmp key k ((sortBy cmp key list).filter p) =
        (ofRank cmp key k (sortBy cmp key list)).filter p := ofRank_filter cmp key k p _
    _ = (ofRank cmp key k list).filter p := by rw [ofRank_sortBy]
    _ = ofRank cmp key k (list.filter p) := (ofRank_filter cmp key k p _).symm
    _ = ofRank cmp key k (sortBy cmp key (list.filter p)) := (ofRank_sortBy k _).symm

end SchemaTrace
