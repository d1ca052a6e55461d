import SchemaTrace.Comment.Annotation
import SchemaTrace.Proofs.Comment.Token
import SchemaTrace.Proofs.SortedMap.Append
import SchemaTrace.Proofs.Text.Position

/-! The annotations of one symbol in a text: those of its comments in their order, at most one for
each comment, so that their positions increase. -/

namespace SchemaTrace.Comment

open Text (byteLength)

theorem parse_get? (tag content : Text) (symbol : String) :
    ((parse tag content).get? symbol).getD [] =
      ((annotations tag content).filter fun a => String.ofList a.1 = symbol).map (·.2) := by
  have folded := SortedMap.getD_foldl_append (annotations tag content)
    (fun a => String.ofList a.1) (fun a => [a.2]) .empty symbol
  rw [SortedMap.get?_empty, Option.getD_none, List.nil_append] at folded
  rw [List.map_eq_flatMap]
  exact folded

theorem firstMentions_distinct (seen : List Text) (found : List Mention) :
    (∀ m ∈ firstMentions seen found, m.symbol ∉ seen) ∧
      (firstMentions seen found).Pairwise fun a b => a.symbol ≠ b.symbol := by
  induction found generalizing seen with
  | nil => simp [firstMentions]
  | cons m rest ih =>
    rw [firstMentions]
    split
    · exact ih seen
    · next new =>
      obtain ⟨unseen, distinct⟩ := ih (m.symbol :: seen)
      have later (other : Mention) (member : other ∈ firstMentions (m.symbol :: seen) rest) :
          m.symbol ≠ other.symbol ∧ other.symbol ∉ seen := by
        have none := unseen other member
        rw [List.mem_cons, not_or] at none
        exact ⟨fun eq => none.1 eq.symm, none.2⟩
      constructor
      · intro other member
        rcases List.mem_cons.mp member with rfl | inside
        · exact new
        · exact (later other inside).2
      · exact .cons (fun other inside => (later other inside).1) distinct

/-- One comment annotates a symbol at most once, at its own position. -/
theorem annotationsOf_pairwise (tag : Text) (lines : LineIndex) (span : Span) :
    (annotationsOf tag lines span).Pairwise fun a b => a.1 ≠ b.1 := by
  unfold annotationsOf
  split
  · exact List.pairwise_map.mpr (firstMentions_distinct [] _).2
  · exact .nil

theorem position_of_mem_annotationsOf {tag : Text} {lines : LineIndex} {span : Span}
    {a : Text × Annotation} (member : a ∈ annotationsOf tag lines span) :
    a.2.position = lines.locate span.start := by
  unfold annotationsOf at member
  split at member
  · obtain ⟨m, -, rfl⟩ := List.mem_map.mp member
    rfl
  · simp at member

theorem parse_pairwise (tag content : Text) (symbol : String) :
    (((parse tag content).get? symbol).getD []).Pairwise fun a b =>
      a.position.Before b.position := by
  rw [parse_get?, List.pairwise_map, List.pairwise_filter]
  unfold annotations
  split
  · exact .nil
  · apply List.pairwise_flatMap.mpr
    constructor
    · intro span _
      apply (annotationsOf_pairwise tag (.ofText content) span).imp
      intro a b differ isA isB
      have same := (of_decide_eq_true isA).trans (of_decide_eq_true isB).symm
      exact absurd (String.ofList_injective same) differ
    · apply (cuts_spans content).pairwise.imp_of_mem
      intro s s' member member' apart a inside b inside' _ _
      have less : s.start < s'.start := Nat.lt_of_lt_of_le apart.1 apart.2
      rw [position_of_mem_annotationsOf inside, position_of_mem_annotationsOf inside']
      obtain ⟨before, rest, eq, start⟩ := (cuts_spans content).exists_split member
      obtain ⟨before', rest', eq', start'⟩ := (cuts_spans content).exists_split member'
      rw [Nat.zero_add] at start start'
      rw [List.append_assoc] at eq eq'
      rw [start, start'] at less ⊢
      exact LineIndex.locate_before_locate eq eq' less

end SchemaTrace.Comment
