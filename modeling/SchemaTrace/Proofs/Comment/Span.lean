import SchemaTrace.Comment.Span
import SchemaTrace.Proofs.Text.Bytes

/-! Where comments stand: each is a piece of the text that begins at its offset, and each ends
before the next one begins. -/

namespace SchemaTrace.Comment

open Text (byteLength byteLength_append byteLength_pos)

/-- A text that begins at a byte offset is cut into comments and characters outside of them. -/
inductive Cuts : Nat → Text → List Span → Prop
  | nil (offset : Nat) : Cuts offset [] []
  | outside {offset : Nat} (c : Char) {t : Text} {spans : List Span} :
      Cuts (offset + c.utf8Size) t spans → Cuts offset (c :: t) spans
  | comment (s : Span) {t : Text} {spans : List Span} :
      s.raw ≠ [] → Cuts s.stop t spans → Cuts s.start (s.raw ++ t) (s :: spans)

namespace Cuts

variable {offset : Nat} {t : Text} {spans : List Span} {s : Span}

theorem exists_split (cuts : Cuts offset t spans) (member : s ∈ spans) :
    ∃ before rest, t = before ++ s.raw ++ rest ∧ s.start = offset + byteLength before := by
  induction cuts with
  | nil offset => simp at member
  | outside c _ ih =>
    obtain ⟨before, rest, eq, start⟩ := ih member
    refine ⟨c :: before, rest, by rw [eq]; rfl, ?_⟩
    rw [start, byteLength, Nat.add_assoc]
  | comment first nonempty _ ih =>
    rcases List.mem_cons.mp member with rfl | later
    · exact ⟨[], _, rfl, rfl⟩
    · obtain ⟨before, rest, eq, start⟩ := ih later
      refine ⟨first.raw ++ before, rest, by simp [eq], ?_⟩
      rw [start, Span.stop, byteLength_append, Nat.add_assoc]

theorem pairwise (cuts : Cuts offset t spans) :
    spans.Pairwise fun a b => a.start < a.stop ∧ a.stop ≤ b.start := by
  induction cuts with
  | nil offset => exact .nil
  | outside c _ ih => exact ih
  | comment first nonempty rest ih =>
    refine List.Pairwise.cons (fun s member => ?_) ih
    obtain ⟨before, -, -, start⟩ := rest.exists_split member
    have width := byteLength_pos nonempty
    rw [start, Span.stop]
    exact ⟨by omega, by omega⟩

end Cuts

end SchemaTrace.Comment
