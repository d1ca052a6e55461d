import SchemaTrace.Comment.Clean
import SchemaTrace.Proofs.Text.Pieces

/-! The prose of a comment against its raw text. Each line of the prose is a piece of a raw line, so
what is found within a line of the prose is found in the raw text. -/

namespace SchemaTrace.Comment

open Text List

theorem suffix_of_getD_orElse {first second rest : Text} :
    ((after? first rest).orElse fun _ => after? second rest).getD rest <:+ rest := by
  cases found : after? first rest with
  | some left => exact suffix_of_after? found
  | none =>
    cases found' : after? second rest with
    | some left => exact suffix_of_after? found'
    | none => exact suffix_refl rest

theorem suffix_dropLineMarker (line : Text) : dropLineMarker line <:+ line := by
  unfold dropLineMarker
  cases found : after? ['/', '/'] (trimStart line) with
  | none => exact suffix_refl line
  | some rest =>
    exact suffix_of_getD_orElse.trans ((suffix_of_after? found).trans (suffix_trimStart line))

theorem suffix_dropStarMarker (line : Text) : dropStarMarker line <:+ line := by
  unfold dropStarMarker
  cases found : after? ['*'] (trimStart line) with
  | none => exact suffix_refl line
  | some rest =>
    have behind : rest <:+ line := (suffix_of_after? found).trans (suffix_trimStart line)
    simp only
    split
    · exact suffix_refl line
    · cases found' : after? [' '] rest with
      | none => exact behind
      | some left => exact (suffix_of_after? found').trans behind

theorem infix_cleanLine (opens : Bool) (line : Text) : cleanLine opens line <:+: line := by
  have padded : (if opens then trimStart (dropLineMarker line) else dropLineMarker line) <:+
      line := by
    cases opens with
    | true => exact (suffix_trimStart _).trans (suffix_dropLineMarker line)
    | false => exact suffix_dropLineMarker line
  have bare := (suffix_dropStarMarker _).trans padded
  exact (prefix_dropTail isWhitespace _).isInfix.trans bare.isInfix

theorem exists_eq_cleanLine_of_mem {opens : Bool} {lines : List Text} {line : Text}
    (member : line ∈ cleanLines opens lines) :
    ∃ opens, ∃ source ∈ lines, line = cleanLine opens source := by
  cases lines with
  | nil => cases member
  | cons first rest =>
    rcases mem_cons.mp member with rfl | later
    · exact ⟨opens, first, mem_cons_self, rfl⟩
    · obtain ⟨source, listed, rfl⟩ := mem_map.mp later
      exact ⟨false, source, mem_cons_of_mem first listed, rfl⟩

theorem exists_of_mem_cleanLines {opens : Bool} {lines : List Text} {line : Text}
    (member : line ∈ cleanLines opens lines) : ∃ source ∈ lines, line <:+: source := by
  obtain ⟨opens, source, listed, rfl⟩ := exists_eq_cleanLine_of_mem member
  exact ⟨source, listed, infix_cleanLine opens source⟩

theorem mem_of_mem_dropEmptyEdges {lines : List Text} {line : Text}
    (member : line ∈ dropEmptyEdges lines) : line ∈ lines := by
  have back := (dropWhile_suffix List.isEmpty).subset (mem_reverse.mp member)
  exact (dropWhile_suffix List.isEmpty).subset (mem_reverse.mp back)

theorem infix_body (raw : Text) : body raw <:+: raw := by
  have opened : (afterOpening? raw).getD raw <:+ raw := suffix_of_getD_orElse
  cases found : before? ['*', '/'] ((afterOpening? raw).getD raw) with
  | none =>
    simp only [body, found, Option.getD_none]
    exact opened.isInfix
  | some rest =>
    simp only [body, found, Option.getD_some]
    exact (prefix_of_before? found).isInfix.trans opened.isInfix

theorem infix_raw_of_mem_proseLines {raw line : Text} (member : line ∈ proseLines raw) :
    line <:+: raw := by
  obtain ⟨source, listed, inside⟩ := exists_of_mem_cleanLines (mem_of_mem_dropEmptyEdges member)
  exact inside.trans ((infix_of_mem_splitLines listed).trans (infix_body raw))

/-- What stands within a line of the prose stands in the raw comment. -/
theorem infix_raw_of_infix_clean {needle raw : Text} (nonempty : needle ≠ [])
    (without : '\n' ∉ needle) (found : needle <:+: clean raw) : needle <:+: raw := by
  obtain ⟨line, member, inside⟩ := exists_infix_of_infix_joinLines nonempty without found
  obtain ⟨source, listed, rfl⟩ := mem_map.mp member
  have whole := infix_raw_of_mem_proseLines listed
  cases cut : fromByte? (commonIndentation (proseLines raw)) source with
  | none =>
    rw [cut] at inside
    exact absurd (infix_nil.mp inside) nonempty
  | some left =>
    rw [cut] at inside
    exact inside.trans ((suffix_of_fromByte? cut).isInfix.trans whole)

end SchemaTrace.Comment
