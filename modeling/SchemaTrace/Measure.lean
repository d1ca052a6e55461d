/-!
A measure for searches that take up no element of a list twice: how many are left.
-/
namespace SchemaTrace

theorem length_filter_lt {α : Type} {p q : α → Bool} {l : List α} (weaker : ∀ a, q a → p a)
    {x : α} (member : x ∈ l) (kept : p x = true) (dropped : q x = false) :
    (l.filter q).length < (l.filter p).length := by
  have sub : (l.filter p).filter q = l.filter q := by
    rw [List.filter_filter]
    congr 1
    funext a
    cases h : q a <;> simp_all
  rw [← sub]
  exact List.length_filter_lt_length_iff_exists.mpr
    ⟨x, List.mem_filter.mpr ⟨member, kept⟩, by simp [dropped]⟩

end SchemaTrace
