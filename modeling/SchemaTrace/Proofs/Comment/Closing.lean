import SchemaTrace.Proofs.Comment.Clean

/-! The closing delimiter of a block comment. The prose of a comment is that of the same comment
left open, but for the comment that holds nothing: there the star of the closing delimiter is taken
with the opening one, and its slash is left. -/

namespace SchemaTrace.Comment

open Text List

def openBlock (inner : Text) : Text := ['/', '*'] ++ inner

def closedBlock (inner : Text) : Text := openBlock (inner ++ ['*', '/'])

variable {inner : Text}

/-- A second star belongs to the opening delimiter. -/
theorem afterOpening?_openBlock (inner : Text) :
    afterOpening? (openBlock inner) = some ((after? ['*'] inner).getD inner) := by
  have long : after? ['/', '*', '*'] (openBlock inner) = after? ['*'] inner := rfl
  have short : after? ['/', '*'] (openBlock inner) = some inner := rfl
  rw [afterOpening?, long, short]
  cases after? ['*'] inner with
  | none => rfl
  | some rest => rfl

/-- The opening delimiter takes nothing of what stands behind a comment that is not empty. -/
theorem after?_star_append (nonempty : inner ≠ []) (tail : Text) :
    (after? ['*'] (inner ++ tail)).getD (inner ++ tail) =
      (after? ['*'] inner).getD inner ++ tail := by
  obtain ⟨c, rest, rfl⟩ := exists_cons_of_ne_nil nonempty
  by_cases star : '*' = c
  · subst star
    rfl
  · simp [after?, star]

theorem body_openBlock (opened : ¬['*', '/'] <:+: inner) :
    body (openBlock inner) = (after? ['*'] inner).getD inner := by
  rw [body, afterOpening?_openBlock, Option.getD_some]
  have within : (after? ['*'] inner).getD inner <:+ inner := by
    cases found : after? ['*'] inner with
    | none => exact suffix_refl inner
    | some rest => exact suffix_of_after? found
  cases closed : before? ['*', '/'] ((after? ['*'] inner).getD inner) with
  | none => rfl
  | some rest =>
    have ends : ['*', '/'] <:+ (after? ['*'] inner).getD inner :=
      ⟨rest, (before?_eq_some_iff.mp closed).symm⟩
    exact absurd (ends.trans within).isInfix opened

theorem body_closedBlock (nonempty : inner ≠ []) :
    body (closedBlock inner) = (after? ['*'] inner).getD inner := by
  rw [body, closedBlock, afterOpening?_openBlock, Option.getD_some, after?_star_append nonempty,
    before?_eq_some_iff.mpr rfl, Option.getD_some]

theorem clean_closedBlock_of_ne_nil (opened : ¬['*', '/'] <:+: inner) (nonempty : inner ≠ []) :
    clean (closedBlock inner) = clean (openBlock inner) := by
  have lines : proseLines (closedBlock inner) = proseLines (openBlock inner) := by
    rw [proseLines, proseLines, body_closedBlock nonempty, body_openBlock opened, closedBlock,
      afterOpening?_openBlock, afterOpening?_openBlock]
    rfl
  rw [clean, clean, lines]

/-- The comment that holds nothing is closed by the star that opens it: its prose is the slash that
is left over, and that of the same comment left open is empty. -/
theorem clean_closedBlock_nil :
    ¬['*', '/'] <:+: ([] : Text) ∧ clean (closedBlock []) = ['/'] ∧ clean (openBlock []) = [] := by
  decide

/-- The closing delimiter of a comment stays out of its prose exactly if the comment holds
anything; of one that holds nothing the slash gets there. -/
theorem clean_closedBlock (opened : ¬['*', '/'] <:+: inner) :
    (clean (closedBlock inner) = clean (openBlock inner) ↔ inner ≠ []) ∧
      clean (closedBlock inner) = if inner = [] then ['/'] else clean (openBlock inner) := by
  by_cases empty : inner = []
  · subst empty
    decide
  · have same := clean_closedBlock_of_ne_nil opened empty
    rw [if_neg empty]
    exact ⟨iff_of_true same empty, same⟩

theorem clean_closedBlock_starred : ¬['*', '/'] <:+: "** a\n *  b\n\n/**".toList ∧
    clean (closedBlock "** a\n *  b\n\n/**".toList) = "a\n b\n\n/**".toList ∧
    clean (closedBlock "** a\n *  b\n\n/**".toList) =
      clean (openBlock "** a\n *  b\n\n/**".toList) := by
  have opened : ¬['*', '/'] <:+: "** a\n *  b\n\n/**".toList := by decide
  exact ⟨opened, by decide, (clean_closedBlock opened).1.mpr (by decide)⟩

end SchemaTrace.Comment
