import SchemaTrace.Comment.Clean
import SchemaTrace.Proofs.Comment.Scan

/-! Prose written as a comment: what cleaning makes of each line, and of the lines together. -/

namespace SchemaTrace.Comment

open Text List

inductive Style where
  | line
  | block
  deriving DecidableEq, Repr

def marked (marker line : Text) : Text := if line.isEmpty then marker else marker ++ ' ' :: line

def Style.written (margin : Text) (lines : List Text) : Style → List Text
  | .line => lines.map fun line => margin ++ marked ['/', '/'] line
  | .block => (margin ++ ['/', '*', '*']) ::
      (lines.map (fun line => margin ++ marked [' ', '*'] line) ++ [margin ++ [' ', '*', '/']])

def Style.opened (margin first : Text) (more : List Text) : Style → List Text
  | .line => marked ['/', '/'] first :: more.map fun line => margin ++ marked ['/', '/'] line
  | .block => ['/', '*', '*'] ::
      ((first :: more).map (fun line => margin ++ marked [' ', '*'] line) ++
        [margin ++ [' ', '*', '/']])

def Style.shape : Style → Shape
  | .line => .lineRun
  | .block => .block

/-- A line that neither ends a block comment, ends in whitespace nor begins with a star. -/
structure IsPlain (line : Text) : Prop where
  oneLine : '\n' ∉ line
  opened : ¬['*', '/'] <:+: line
  trimmed : ∀ c ∈ line.getLast?, isWhitespace c = false
  unstarred : (trimStart line).head? ≠ some '*'

/-- Plain lines that neither begin with whitespace nor end with an empty line. -/
structure IsProse (lines : List Text) : Prop where
  plain : ∀ line ∈ lines, IsPlain line
  first : ∀ line ∈ lines.head?, ∃ c rest, line = c :: rest ∧ isWhitespace c = false
  last : ∀ line ∈ lines.getLast?, line ≠ []

/-! ### One line -/

theorem isWhitespace_of_isBlank {c : Char} (blank : isBlank c = true) : isWhitespace c = true := by
  simp only [isBlank, Bool.or_eq_true, decide_eq_true_eq] at blank
  rcases blank with rfl | rfl
  · decide
  · decide

theorem trimStart_margin {margin : Text} (blank : ∀ c ∈ margin, isBlank c = true) (rest : Text) :
    trimStart (margin ++ rest) = trimStart rest :=
  dropWhile_append_of_pos fun c member => isWhitespace_of_isBlank (blank c member)

theorem trimEnd_of_trimmed {line : Text} (trimmed : ∀ c ∈ line.getLast?, isWhitespace c = false) :
    trimEnd line = line := by
  have stops : ∀ c ∈ line.reverse.head?, isWhitespace c = false := by
    rwa [head?_reverse]
  have kept := (takeWhile_append_of_head (a := []) (fun c member => by cases member) stops).2
  rw [nil_append] at kept
  rw [trimEnd, dropTail, kept, reverse_reverse]

theorem dropStarMarker_of_unstarred {line : Text} (unstarred : (trimStart line).head? ≠ some '*') :
    dropStarMarker line = line := by
  have none : after? ['*'] (trimStart line) = none := by
    rw [Option.eq_none_iff_forall_ne_some]
    intro rest found
    rw [after?_eq_some_iff.mp found] at unstarred
    exact unstarred rfl
  rw [dropStarMarker, none]

theorem trimStart_marked_nil (line : Text) : trimStart (marked [] line) = trimStart line := by
  cases line with
  | nil => rfl
  | cons c line => rfl

theorem trimEnd_marked_nil {line : Text} (trimmed : ∀ c ∈ line.getLast?, isWhitespace c = false) :
    trimEnd (marked [] line) = marked [] line := by
  cases line with
  | nil => rfl
  | cons c line =>
    apply trimEnd_of_trimmed
    intro d member
    change d ∈ (' ' :: c :: line).getLast? at member
    rw [getLast?_cons_cons] at member
    exact trimmed d member

theorem cleanLine_line (margin : Text) {line : Text} (blank : ∀ c ∈ margin, isBlank c = true)
    (plain : IsPlain line) :
    cleanLine false (margin ++ marked ['/', '/'] line) = marked [] line := by
  have dropped : dropLineMarker (margin ++ marked ['/', '/'] line) = marked [] line := by
    rw [dropLineMarker, trimStart_margin blank]
    cases line with
    | nil => rfl
    | cons c line => rfl
  have kept : dropStarMarker (marked [] line) = marked [] line := by
    apply dropStarMarker_of_unstarred
    rw [trimStart_marked_nil]
    exact plain.unstarred
  rw [cleanLine, dropped]
  simp only [Bool.false_eq_true, if_false]
  rw [kept, trimEnd_marked_nil plain.trimmed]

theorem cleanLine_block {margin line : Text} (blank : ∀ c ∈ margin, isBlank c = true)
    (plain : IsPlain line) :
    cleanLine false (margin ++ marked [' ', '*'] line) = line := by
  have start : trimStart (margin ++ marked [' ', '*'] line) = marked ['*'] line := by
    rw [trimStart_margin blank]
    cases line with
    | nil => rfl
    | cons c line => rfl
  have kept : dropLineMarker (margin ++ marked [' ', '*'] line) =
      margin ++ marked [' ', '*'] line := by
    rw [dropLineMarker, start]
    cases line with
    | nil => rfl
    | cons c line => rfl
  have dropped : dropStarMarker (margin ++ marked [' ', '*'] line) = line := by
    rw [dropStarMarker, start]
    cases line with
    | nil => rfl
    | cons c line => rfl
  rw [cleanLine, kept]
  simp only [Bool.false_eq_true, if_false]
  rw [dropped, trimEnd_of_trimmed plain.trimmed]

theorem cleanLine_of_blank {line : Text} (blank : ∀ c ∈ line, isBlank c = true) :
    cleanLine false line = [] := by
  have space : ∀ c ∈ line, isWhitespace c = true :=
    fun c member => isWhitespace_of_isBlank (blank c member)
  have start : trimStart line = [] := dropWhile_eq_nil_iff.mpr space
  have bare : dropLineMarker line = line := by
    rw [dropLineMarker, start]
    rfl
  have starless : dropStarMarker line = line := by
    rw [dropStarMarker, start]
    rfl
  have none : trimEnd line = [] := by
    rw [trimEnd, dropTail, reverse_eq_nil_iff, dropWhile_eq_nil_iff]
    exact fun c member => space c (mem_reverse.mp member)
  rw [cleanLine, bare]
  simp only [Bool.false_eq_true, if_false]
  rw [starless, none]

/-! ### All lines -/

theorem dropEmptyEdges_of_edges {before lines after : List Text} (nonempty : lines ≠ [])
    (empty : ∀ line ∈ before ++ after, line = []) (first : ∀ line ∈ lines.head?, line ≠ [])
    (last : ∀ line ∈ lines.getLast?, line ≠ []) :
    dropEmptyEdges (before ++ lines ++ after) = lines := by
  have edge {edge inner : List Text} (inside : edge ⊆ before ++ after)
      (stops : ∀ line ∈ inner.head?, line ≠ []) :
      (edge ++ inner).dropWhile List.isEmpty = inner := by
    refine (takeWhile_append_of_head (fun line member => ?_) fun line member => ?_).2
    · exact isEmpty_iff.mpr (empty line (inside member))
    · exact isEmpty_eq_false_iff.mpr (stops line member)
  have front : (before ++ (lines ++ after)).dropWhile List.isEmpty = lines ++ after := by
    apply edge (subset_append_left before after)
    rwa [head?_append_of_ne_nil _ nonempty]
  have back : (after.reverse ++ lines.reverse).dropWhile List.isEmpty = lines.reverse := by
    apply edge
    · exact fun line member => mem_append_right before (mem_reverse.mp member)
    · rwa [head?_reverse]
  rw [dropEmptyEdges, append_assoc, front, reverse_append, back, reverse_reverse]

theorem indentation_cons_of_solid {c : Char} {rest : Text} (solid : isBlank c = false) :
    indentation (c :: rest) = 0 := by
  rw [indentation, takeWhile_cons_of_neg (by simp [solid])]
  rfl

theorem exists_indentation_eq {lines : List Text} {line : Text} (member : line ∈ lines)
    (filled : trim line ≠ []) :
    ∃ least ∈ lines, trim least ≠ [] ∧ indentation least = commonIndentation lines ∧
      indentation least ≤ indentation line := by
  have counted : indentation line ∈
      (lines.filter fun line => !(trim line).isEmpty).map indentation :=
    mem_map_of_mem (mem_filter.mpr ⟨member, by simpa using filled⟩)
  obtain ⟨width, least⟩ := Option.isSome_iff_exists.mp (isSome_min?_of_mem counted)
  obtain ⟨attained, below⟩ := min?_eq_some_iff.mp least
  obtain ⟨other, listed, rfl⟩ := mem_map.mp attained
  obtain ⟨inside, holds⟩ := mem_filter.mp listed
  refine ⟨other, inside, by simpa using holds, ?_, below _ counted⟩
  rw [commonIndentation, least, Option.getD_some]

/-- The common indentation is that of a line that holds more than whitespace and is indented
least. -/
theorem commonIndentation_eq {lines : List Text} {line : Text} (member : line ∈ lines)
    (filled : trim line ≠ []) (least : ∀ other ∈ lines, trim other ≠ [] →
      indentation line ≤ indentation other) : commonIndentation lines = indentation line := by
  obtain ⟨other, listed, holds, common, le⟩ := exists_indentation_eq member filled
  rw [← common]
  exact Nat.le_antisymm le (least other listed holds)

theorem trim_ne_nil_of_cons {c : Char} {rest : Text} (solid : isWhitespace c = false) :
    trim (c :: rest) ≠ [] := by
  have start : trimStart (c :: rest) = c :: rest := dropWhile_cons_of_neg (by simp [solid])
  intro empty
  rw [trim, start, trimEnd, dropTail, reverse_eq_nil_iff, dropWhile_eq_nil_iff] at empty
  have space := empty c (mem_reverse.mpr mem_cons_self)
  rw [solid] at space
  cases space

end SchemaTrace.Comment
