import Mathlib.Data.List.TakeWhile
import SchemaTrace.Proofs.Text.Bytes
import SchemaTrace.Text.Position

/-! The position of a byte offset. Its line counts the newlines before the offset and its column
the characters after the last of them, so positions grow with the offset. -/

namespace SchemaTrace

open Text (byteLength byteLength_append)

namespace Position

def after (before : Text) : Position :=
  ⟨before.count '\n' + 1, (before.reverse.takeWhile (· ≠ '\n')).length + 1⟩

def Before (a b : Position) : Prop := a.line < b.line ∨ a.line = b.line ∧ a.column < b.column

theorem Before.irrefl (a : Position) : ¬a.Before a := by
  intro before
  rcases before with less | ⟨-, less⟩
  · exact Nat.lt_irrefl _ less
  · exact Nat.lt_irrefl _ less

theorem after_before_after (a : Text) {b : Text} (nonempty : b ≠ []) :
    (after a).Before (after (a ++ b)) := by
  by_cases newline : '\n' ∈ b
  · left
    have more := List.count_pos_iff.mpr newline
    simp only [after, List.count_append]
    omega
  · right
    have none : b.count '\n' = 0 := List.count_eq_zero.mpr newline
    have all : ∀ c ∈ b.reverse, decide (c ≠ '\n') = true := by
      intro c member
      have inside := List.mem_reverse.mp member
      exact decide_eq_true fun eq => newline (eq ▸ inside)
    have longer := List.length_pos_iff.mpr nonempty
    simp only [after, List.count_append, none, List.reverse_append,
      List.takeWhile_append_of_pos all, List.length_append, List.length_reverse]
    exact ⟨trivial, by omega⟩

theorem after_before_of_byteLength_lt {a b restA restB : Text} (same : a ++ restA = b ++ restB)
    (less : byteLength a < byteLength b) : (after a).Before (after b) := by
  obtain ⟨between, nonempty, eq⟩ := Text.exists_append_of_byteLength_lt same less
  rw [eq]
  exact after_before_after a nonempty

end Position

namespace LineIndex

theorem startsFrom_append (offset : Nat) (a b : Text) :
    startsFrom offset (a ++ b) = startsFrom offset a ++ startsFrom (offset + byteLength a) b := by
  induction a generalizing offset with
  | nil => simp [startsFrom, byteLength]
  | cons c t ih =>
    simp only [List.cons_append, startsFrom, ih, byteLength, Nat.add_assoc]
    split <;> simp

theorem mem_startsFrom {offset start : Nat} {t : Text} (member : start ∈ startsFrom offset t) :
    offset < start ∧ start ≤ offset + byteLength t := by
  induction t generalizing offset with
  | nil => simp [startsFrom] at member
  | cons c t ih =>
    have width := c.utf8Size_pos
    simp only [startsFrom] at member
    have later : start = offset + c.utf8Size ∨ start ∈ startsFrom (offset + c.utf8Size) t := by
      split at member
      · exact List.mem_cons.mp member
      · exact .inr member
    simp only [byteLength]
    rcases later with here | inside
    · omega
    · have bounds := ih inside
      omega

theorem startsFrom_of_newline_not_mem (offset : Nat) {line : Text} (none : '\n' ∉ line) :
    startsFrom offset line = [] := by
  induction line generalizing offset with
  | nil => rfl
  | cons c t ih =>
    obtain ⟨first, rest⟩ := not_or.mp (mt List.mem_cons.mpr none)
    have differs : ¬c = '\n' := fun eq => first eq.symm
    simp [startsFrom, differs, ih _ rest]

theorem length_startsFrom (offset : Nat) (t : Text) :
    (startsFrom offset t).length = t.count '\n' := by
  induction t generalizing offset with
  | nil => rfl
  | cons c t ih =>
    by_cases newline : c = '\n'
    · simp [startsFrom, newline, ih]
    · simp [startsFrom, newline, ih]

/-- The line starts up to the end of a beginning of the text are the line starts of that
beginning. -/
theorem takeWhile_starts (before rest : Text) :
    (ofText (before ++ rest)).starts.takeWhile (· ≤ byteLength before) =
      0 :: startsFrom 0 before := by
  have within : ∀ start ∈ 0 :: startsFrom 0 before, decide (start ≤ byteLength before) = true := by
    intro start member
    rcases List.mem_cons.mp member with rfl | inside
    · simp
    · have bounds := mem_startsFrom inside
      exact decide_eq_true (by omega)
  have beyond :
      (startsFrom (0 + byteLength before) rest).takeWhile (· ≤ byteLength before) = [] := by
    apply List.takeWhile_eq_nil_iff.mpr
    intro nonempty
    have bounds := mem_startsFrom (List.get_mem _ ⟨0, nonempty⟩)
    simp only [decide_eq_true_eq]
    omega
  simp only [ofText]
  rw [startsFrom_append, ← List.cons_append, List.takeWhile_append_of_pos within, beyond,
    List.append_nil]

theorem getLast?_starts {whole line : Text} (none : '\n' ∉ line)
    (ends : whole = [] ∨ ∃ t, whole = t ++ ['\n']) :
    (0 :: startsFrom 0 (whole ++ line)).getLast? = some (byteLength whole) := by
  rw [startsFrom_append, startsFrom_of_newline_not_mem _ none, List.append_nil]
  rcases ends with rfl | ⟨t, rfl⟩
  · rfl
  · rw [startsFrom_append, byteLength_append, ← List.cons_append, List.getLast?_append]
    simp [startsFrom, byteLength]

theorem exists_lastLine (t : Text) : ∃ whole line, t = whole ++ line ∧ '\n' ∉ line ∧
    (whole = [] ∨ ∃ lines, whole = lines ++ ['\n']) ∧
      line.length = (t.reverse.takeWhile (· ≠ '\n')).length := by
  refine ⟨(t.reverse.dropWhile (· ≠ '\n')).reverse, (t.reverse.takeWhile (· ≠ '\n')).reverse,
    ?_, ?_, ?_, List.length_reverse⟩
  · rw [← List.reverse_append, List.takeWhile_append_dropWhile, List.reverse_reverse]
  · intro member
    have holds := List.mem_takeWhile_imp (List.mem_reverse.mp member)
    simp at holds
  · cases left : t.reverse.dropWhile (· ≠ '\n') with
    | nil => exact .inl rfl
    | cons c rest =>
      have stops := List.head?_dropWhile_not (· ≠ '\n') t.reverse
      rw [left] at stops
      have newline : c = '\n' := by simpa using stops
      exact .inr ⟨rest.reverse, by rw [newline, List.reverse_cons]⟩

/-- An offset between two characters has a position, the one just after the text before it. -/
theorem locate?_of_append (before rest : Text) :
    (ofText (before ++ rest)).locate? (byteLength before) = some (.after before) := by
  obtain ⟨whole, line, eq, none, ends, width⟩ := exists_lastLine before
  have starts := takeWhile_starts before rest
  have last : (0 :: startsFrom 0 before).getLast? = some (byteLength whole) :=
    eq ▸ getLast?_starts none ends
  have from_ : Text.fromByte? (byteLength whole) (before ++ rest) = some (line ++ rest) := by
    rw [eq, List.append_assoc]
    exact Text.fromByte?_append whole (line ++ rest)
  have size : byteLength before - byteLength whole = byteLength line := by
    rw [eq, byteLength_append]
    omega
  have number : (0 :: startsFrom 0 before).length = before.count '\n' + 1 := by
    rw [List.length_cons, length_startsFrom]
  simp only [locate?, starts, last, Option.bind_eq_bind, Option.bind_some]
  simp only [ofText, from_, Option.bind_some, size, Text.charsBefore?_append, number, width,
    Position.after]

/-- A byte offset splits no character of a text, so it can be located: at the position just after
the text before it. -/
def Locates (content : Text) (offset : Nat) : Prop :=
  ∃ before rest, content = before ++ rest ∧ byteLength before = offset ∧
    (ofText content).locate? offset = some (.after before)

theorem locates_of_append {content before rest : Text} (split : content = before ++ rest) :
    Locates content (byteLength before) := by
  refine ⟨before, rest, split, rfl, ?_⟩
  rw [split, locate?_of_append]

theorem locate_of_append (before rest : Text) :
    (ofText (before ++ rest)).locate (byteLength before) = .after before := by
  rw [locate, locate?_of_append, Option.getD_some]

theorem locate_before_locate {content before rest before' rest' : Text}
    (here : content = before ++ rest) (there : content = before' ++ rest')
    (less : byteLength before < byteLength before') :
    ((ofText content).locate (byteLength before)).Before
      ((ofText content).locate (byteLength before')) := by
  have first : (ofText content).locate (byteLength before) = .after before := by
    rw [here, locate_of_append]
  have second : (ofText content).locate (byteLength before') = .after before' := by
    rw [there, locate_of_append]
  rw [first, second]
  exact Position.after_before_of_byteLength_lt (here.symm.trans there) less

end LineIndex
end SchemaTrace
