import SchemaTrace.Proofs.Text.Pieces

/-! Replacing the occurrences of a needle, piece by piece of a text. -/

namespace SchemaTrace.Text

open List

variable {needle value t : Text}

theorem replaceFrom_eq_drop (needle value : Text) (skip : Nat) (t : Text) :
    replaceFrom needle value skip t = replace needle value (t.drop skip) := by
  induction t generalizing skip with
  | nil => cases skip <;> rfl
  | cons c t ih =>
    cases skip with
    | zero => rfl
    | succ skip => exact ih skip

theorem replace_append (nonempty : needle ≠ []) (value t : Text) :
    replace needle value (needle ++ t) = value ++ replace needle value t := by
  obtain ⟨c, more, rfl⟩ := exists_cons_of_ne_nil nonempty
  have starts : startsWith (c :: more) (c :: (more ++ t)) = true :=
    startsWith_eq_true_iff.mpr ⟨t, rfl⟩
  rw [replace, cons_append, replaceFrom, if_pos starts, replaceFrom_eq_drop]
  congr 2
  exact drop_left

theorem replace_cons {c : Char} (elsewhere : ¬needle <+: c :: t) (value : Text) :
    replace needle value (c :: t) = c :: replace needle value t := by
  have silent : ¬startsWith needle (c :: t) = true := startsWith_eq_true_iff.not.mpr elsewhere
  rw [replace, replaceFrom, if_neg silent]
  rfl

theorem replace_append_of_not_mem {first : Char} {more piece : Text} (absent : first ∉ piece)
    (value t : Text) :
    replace (first :: more) value (piece ++ t) = piece ++ replace (first :: more) value t := by
  induction piece with
  | nil => rfl
  | cons c piece ih =>
    obtain ⟨other, later⟩ := not_or.mp (mem_cons.not.mp absent)
    have elsewhere : ¬(first :: more) <+: c :: (piece ++ t) :=
      fun starts => other (cons_prefix_cons.mp starts).1
    rw [cons_append, replace_cons elsewhere, ih later, cons_append]

theorem mem_of_mem_replaceFrom {c : Char} {skip : Nat}
    (member : c ∈ replaceFrom needle value skip t) : c ∈ value ∨ c ∈ t := by
  induction t generalizing skip with
  | nil => cases skip <;> cases member
  | cons d t ih =>
    cases skip with
    | succ skip => exact (ih member).imp_right (mem_cons_of_mem d)
    | zero =>
      rw [replaceFrom] at member
      split at member
      · rcases mem_append.mp member with inValue | later
        · exact .inl inValue
        · exact (ih later).imp_right (mem_cons_of_mem d)
      · rcases mem_cons.mp member with rfl | later
        · exact .inr mem_cons_self
        · exact (ih later).imp_right (mem_cons_of_mem d)

theorem replace_ne_nil (nonempty : t ≠ []) (kept : value ≠ []) : replace needle value t ≠ [] := by
  obtain ⟨c, t, rfl⟩ := exists_cons_of_ne_nil nonempty
  rw [replace, replaceFrom]
  split
  · exact append_ne_nil_of_left_ne_nil kept _
  · exact cons_ne_nil _ _

end SchemaTrace.Text
