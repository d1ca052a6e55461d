import SchemaTrace.Proofs.Comment.Clean
import SchemaTrace.Proofs.Comment.Recovered

/-! The normal form of prose. Cleaning leaves no whitespace at the end of a line, no empty line at
either end and a line that is not indented. A text of this form without the markers of a comment is
its own prose. -/

namespace SchemaTrace.Comment

open Text List

def IsTrimmed (line : Text) : Prop := ∀ c ∈ line.getLast?, isWhitespace c = false

/-- Lines without an empty one at either end. -/
structure IsEdged (lines : List Text) : Prop where
  first : ∀ line ∈ lines.head?, line ≠ []
  last : ∀ line ∈ lines.getLast?, line ≠ []

/-- A text of which no line ends in whitespace and which, unless it is empty, neither begins nor
ends with an empty line and has a line that begins with neither a space nor a tab. -/
structure IsNormal (t : Text) : Prop where
  trimmed : ∀ line ∈ splitLines t, IsTrimmed line
  edged : t = [] ∨ IsEdged (splitLines t)
  flush : t = [] ∨ ∃ c rest, c :: rest ∈ splitLines t ∧ isBlank c = false

structure IsUnmarked (t : Text) : Prop where
  opening : ¬['/', '*'] <+: t
  closing : ¬['*', '/'] <:+ t
  slashes : ∀ line ∈ splitLines t, ¬['/', '/'] <+: trimStart line
  star : ∀ line ∈ splitLines t, (trimStart line).head? ≠ some '*'

/-- A line cut behind `width` bytes, all of them spaces and tabs, with something left of it. -/
structure IsCut (width : Nat) (line indent rest : Text) : Prop where
  parts : line = indent ++ rest
  size : byteLength indent = width
  blank : ∀ c ∈ indent, isBlank c = true
  nonempty : rest ≠ []

/-! ### Trimmed lines -/

theorem isTrimmed_trimEnd (line : Text) : IsTrimmed (trimEnd line) := by
  intro c last
  have stops := head?_dropWhile_not isWhitespace line.reverse
  rw [trimEnd, dropTail, getLast?_reverse] at last
  rw [Option.mem_def.mp last] at stops
  exact stops

theorem IsTrimmed.of_suffix {line rest : Text} (trimmed : IsTrimmed line) (ends : rest <:+ line) :
    IsTrimmed rest := by
  obtain ⟨front, rfl⟩ := ends
  intro c last
  apply trimmed
  rw [getLast?_append, Option.mem_def.mp last]
  rfl

theorem IsTrimmed.trim_ne_nil {line : Text} (trimmed : IsTrimmed line) (nonempty : line ≠ []) :
    trim line ≠ [] := by
  have solid := trimmed _ (getLast?_eq_some_getLast nonempty)
  have filled : trimStart line ≠ [] := by
    intro none
    have space := dropWhile_eq_nil_iff.mp none _ (getLast_mem nonempty)
    rw [solid] at space
    cases space
  rwa [trim, trimEnd_of_trimmed (trimmed.of_suffix (suffix_trimStart line))]

theorem isTrimmed_of_mem_proseLines {raw line : Text} (member : line ∈ proseLines raw) :
    IsTrimmed line := by
  obtain ⟨opens, source, -, rfl⟩ :=
    exists_eq_cleanLine_of_mem (mem_of_mem_dropEmptyEdges member)
  exact isTrimmed_trimEnd _

theorem newline_not_mem_of_mem_proseLines {raw line : Text} (member : line ∈ proseLines raw) :
    '\n' ∉ line := by
  obtain ⟨source, listed, inside⟩ := exists_of_mem_cleanLines (mem_of_mem_dropEmptyEdges member)
  exact fun newline => not_mem_of_mem_splitAll listed (inside.subset newline)

/-! ### Edges -/

theorem first_ne_nil_of_dropWhile (lines : List Text) :
    ∀ line ∈ (lines.dropWhile List.isEmpty).head?, line ≠ [] := by
  intro line first
  have stops := head?_dropWhile_not List.isEmpty lines
  rw [Option.mem_def.mp first] at stops
  exact isEmpty_eq_false_iff.mp stops

theorem isEdged_dropEmptyEdges (lines : List Text) : IsEdged (dropEmptyEdges lines) where
  first line first := by
    -- What the second pass leaves begins as the first pass left it.
    have front : dropEmptyEdges lines <+: lines.dropWhile List.isEmpty := by
      rw [← reverse_suffix, dropEmptyEdges, reverse_reverse]
      exact dropWhile_suffix List.isEmpty
    obtain ⟨tail, whole⟩ := front
    apply first_ne_nil_of_dropWhile lines line
    rw [← whole, head?_append, Option.mem_def.mp first]
    rfl
  last line last := by
    rw [dropEmptyEdges, getLast?_reverse] at last
    exact first_ne_nil_of_dropWhile _ line last

theorem IsEdged.map {lines : List Text} (edged : IsEdged lines) {f : Text → Text}
    (keeps : ∀ line ∈ lines, line ≠ [] → f line ≠ []) : IsEdged (lines.map f) where
  first line first := by
    rw [head?_map, Option.mem_def, Option.map_eq_some_iff] at first
    obtain ⟨source, here, rfl⟩ := first
    exact keeps source (mem_of_mem_head? here) (edged.first source here)
  last line last := by
    rw [getLast?_map, Option.mem_def, Option.map_eq_some_iff] at last
    obtain ⟨source, here, rfl⟩ := last
    exact keeps source (mem_of_mem_getLast? here) (edged.last source here)

/-! ### The cut -/

theorem byteLength_of_blank {t : Text} (blank : ∀ c ∈ t, isBlank c = true) :
    byteLength t = t.length := by
  induction t with
  | nil => rfl
  | cons c t ih =>
    obtain ⟨first, rest⟩ := forall_mem_cons.mp blank
    have width : c.utf8Size = 1 := by
      simp only [isBlank, Bool.or_eq_true, decide_eq_true_eq] at first
      rcases first with rfl | rfl
      · decide
      · decide
    rw [byteLength, ih rest, width, length_cons, Nat.add_comm]

theorem IsCut.fromByte?_eq {width : Nat} {line indent rest : Text}
    (cut : IsCut width line indent rest) : fromByte? width line = some rest := by
  rw [cut.parts, ← cut.size, fromByte?_append]

theorem isCut_indentation {line : Text} (filled : trim line ≠ []) :
    IsCut (indentation line) line (line.takeWhile isBlank) (line.dropWhile isBlank) where
  parts := takeWhile_append_dropWhile.symm
  size := rfl
  blank := fun _ member => mem_takeWhile_imp member
  nonempty := by
    intro none
    have space : trimStart line = [] := dropWhile_eq_nil_iff.mpr fun c member =>
      isWhitespace_of_isBlank (dropWhile_eq_nil_iff.mp none c member)
    apply filled
    rw [trim, space]
    rfl

/-- A line that is cut behind its indentation can be cut anywhere before that. -/
theorem IsCut.shorter {wide width : Nat} {line indent rest : Text}
    (cut : IsCut wide line indent rest) (le : width ≤ wide) :
    IsCut width line (indent.take width) (indent.drop width ++ rest) where
  parts := by rw [← append_assoc, take_append_drop, cut.parts]
  size := by
    have bytes := byteLength_of_blank cut.blank
    have size := cut.size
    rw [byteLength_of_blank fun c member => cut.blank c (mem_of_mem_take member), length_take]
    omega
  blank := fun c member => cut.blank c (mem_of_mem_take member)
  nonempty := append_ne_nil_of_right_ne_nil _ cut.nonempty

theorem exists_isCut {lines : List Text} {line : Text} (member : line ∈ lines)
    (filled : trim line ≠ []) :
    ∃ indent rest, IsCut (commonIndentation lines) line indent rest := by
  obtain ⟨least, -, -, common, le⟩ := exists_indentation_eq member filled
  rw [← common]
  exact ⟨_, _, (isCut_indentation filled).shorter le⟩

def cutLine (width : Nat) (line : Text) : Text := (fromByte? width line).getD []

theorem dedent_eq_map (width : Nat) (lines : List Text) :
    dedent width lines = lines.map (cutLine width) := rfl

theorem suffix_cutLine (width : Nat) (line : Text) : cutLine width line <:+ line := by
  cases found : fromByte? width line with
  | none =>
    rw [cutLine, found]
    exact nil_suffix
  | some rest =>
    rw [cutLine, found]
    exact suffix_of_fromByte? found

theorem IsCut.cutLine_eq {width : Nat} {line indent rest : Text}
    (cut : IsCut width line indent rest) : cutLine width line = rest := by
  rw [cutLine, cut.fromByte?_eq, Option.getD_some]

theorem exists_flush {lines : List Text} {line : Text} (member : line ∈ lines)
    (filled : trim line ≠ []) :
    ∃ c rest, c :: rest ∈ lines.map (cutLine (commonIndentation lines)) ∧ isBlank c = false := by
  obtain ⟨least, listed, solid, common, -⟩ := exists_indentation_eq member filled
  have cut := isCut_indentation solid
  obtain ⟨c, rest, left⟩ := exists_cons_of_ne_nil cut.nonempty
  have stops := head?_dropWhile_not isBlank least
  rw [left] at stops
  refine ⟨c, rest, ?_, stops⟩
  rw [← left, ← common, ← cut.cutLine_eq]
  exact mem_map_of_mem listed

/-! ### The normal form -/

theorem isNormal_nil : IsNormal [] where
  trimmed line member := by
    rw [mem_singleton.mp member]
    intro c none
    cases none
  edged := .inl rfl
  flush := .inl rfl

theorem clean_eq_nil {raw : Text} (none : proseLines raw = []) : clean raw = [] := by
  rw [clean, none]
  rfl

theorem splitLines_clean {raw : Text} (nonempty : proseLines raw ≠ []) : splitLines (clean raw) =
    (proseLines raw).map (cutLine (commonIndentation (proseLines raw))) := by
  have oneLine : ∀ line ∈ (proseLines raw).map (cutLine (commonIndentation (proseLines raw))),
      '\n' ∉ line := by
    intro line member newline
    obtain ⟨source, listed, rfl⟩ := mem_map.mp member
    exact newline_not_mem_of_mem_proseLines listed ((suffix_cutLine _ source).subset newline)
  rw [clean, dedent_eq_map, splitLines_joinLines oneLine (mt map_eq_nil_iff.mp nonempty)]

theorem isNormal_clean (raw : Text) : IsNormal (clean raw) := by
  by_cases none : proseLines raw = []
  · rw [clean_eq_nil none]
    exact isNormal_nil
  have edged : IsEdged (proseLines raw) := isEdged_dropEmptyEdges _
  have filled : ∀ line ∈ proseLines raw, line ≠ [] → trim line ≠ [] :=
    fun line member => (isTrimmed_of_mem_proseLines member).trim_ne_nil
  have lines := splitLines_clean none
  constructor
  case trimmed =>
    intro line member
    rw [lines] at member
    obtain ⟨source, listed, rfl⟩ := mem_map.mp member
    exact (isTrimmed_of_mem_proseLines listed).of_suffix (suffix_cutLine _ source)
  case edged =>
    rw [lines]
    refine .inr (edged.map fun line member nonempty => ?_)
    obtain ⟨indent, rest, cut⟩ := exists_isCut member (filled line member nonempty)
    rw [cut.cutLine_eq]
    exact cut.nonempty
  case flush =>
    have first := head_mem none
    have begins := edged.first _ (head?_eq_some_head none)
    rw [lines]
    exact .inr (exists_flush first (filled _ first begins))

/-! ### Texts that are their own prose -/

theorem IsUnmarked.afterOpening?_eq {t : Text} (unmarked : IsUnmarked t) :
    afterOpening? t = none := by
  have long : after? ['/', '*', '*'] t = none :=
    after?_eq_none_iff.mpr fun starts => unmarked.opening ((prefix_append _ ['*']).trans starts)
  rw [afterOpening?, long, after?_eq_none_iff.mpr unmarked.opening]
  rfl

theorem IsUnmarked.body_eq {t : Text} (unmarked : IsUnmarked t) : body t = t := by
  rw [body, unmarked.afterOpening?_eq, Option.getD_none]
  cases closed : before? ['*', '/'] t with
  | none => rfl
  | some rest => exact absurd ⟨rest, (before?_eq_some_iff.mp closed).symm⟩ unmarked.closing

theorem dropLineMarker_of_unmarked {line : Text} (bare : ¬['/', '/'] <+: trimStart line) :
    dropLineMarker line = line := by
  rw [dropLineMarker, after?_eq_none_iff.mpr bare]

theorem cleanLines_false (lines : List Text) :
    cleanLines false lines = lines.map (cleanLine false) := by
  cases lines with
  | nil => rfl
  | cons first more => rfl

theorem IsUnmarked.cleanLines_eq {t : Text} (unmarked : IsUnmarked t)
    (trimmed : ∀ line ∈ splitLines t, IsTrimmed line) :
    cleanLines false (splitLines t) = splitLines t := by
  rw [cleanLines_false]
  refine (map_congr_left fun line member => ?_).trans (map_id _)
  rw [cleanLine, dropLineMarker_of_unmarked (unmarked.slashes line member)]
  simp only [Bool.false_eq_true, if_false]
  rw [dropStarMarker_of_unstarred (unmarked.star line member),
    trimEnd_of_trimmed (trimmed line member), id]

theorem clean_eq_self {t : Text} (normal : IsNormal t) (unmarked : IsUnmarked t) :
    clean t = t := by
  rcases normal.edged with rfl | edged
  · rfl
  rcases normal.flush with rfl | ⟨c, rest, flush, solid⟩
  · rfl
  have edges : dropEmptyEdges ([] ++ splitLines t ++ []) = splitLines t :=
    dropEmptyEdges_of_edges (splitLines_ne_nil t) (by simp) edged.first edged.last
  rw [nil_append, append_nil] at edges
  have prose : proseLines t = splitLines t := by
    rw [proseLines, unmarked.afterOpening?_eq, Option.isSome_none, unmarked.body_eq,
      unmarked.cleanLines_eq normal.trimmed, edges]
  have none : indentation (c :: rest) = 0 := indentation_cons_of_solid solid
  have common : commonIndentation (splitLines t) = 0 := by
    have filled := (normal.trimmed _ flush).trim_ne_nil (cons_ne_nil c rest)
    rw [← none]
    apply commonIndentation_eq flush filled
    intro other _ _
    rw [none]
    exact Nat.zero_le _
  rw [clean, prose, common, dedent_zero, joinLines_splitLines]

/-- Cleaning gives the normal form of every raw comment. The cut at the common indentation takes
spaces and tabs only and leaves part of each line that holds more than whitespace. A text in normal
form without markers is left as it is; cleaning once more changes nothing if no marker is left. -/
theorem clean_normalizes :
    (∀ raw, IsNormal (clean raw) ∧ ∀ line ∈ proseLines raw, trim line ≠ [] → ∃ indent rest,
      IsCut (commonIndentation (proseLines raw)) line indent rest ∧
        fromByte? (commonIndentation (proseLines raw)) line = some rest) ∧
    (∀ t, IsNormal t → IsUnmarked t → clean t = t) ∧
    ∀ raw, IsUnmarked (clean raw) → clean (clean raw) = clean raw := by
  refine ⟨fun raw => ⟨isNormal_clean raw, ?_⟩, fun t => clean_eq_self,
    fun raw => clean_eq_self (isNormal_clean raw)⟩
  intro line member filled
  obtain ⟨indent, rest, cut⟩ := exists_isCut member filled
  exact ⟨indent, rest, cut, cut.fromByte?_eq⟩

theorem clean_normalizes_block :
    clean "/* a\n *   b\n */".toList = "a\n  b".toList ∧
      IsNormal "a\n  b".toList ∧ IsUnmarked "a\n  b".toList ∧
      clean "a\n  b".toList = "a\n  b".toList := by
  have once : clean "/* a\n *   b\n */".toList = "a\n  b".toList := by decide
  have unmarked : IsUnmarked "a\n  b".toList :=
    ⟨by decide, by decide, by decide, by decide⟩
  have normal := (clean_normalizes.1 "/* a\n *   b\n */".toList).1
  rw [once] at normal
  exact ⟨once, normal, unmarked, clean_normalizes.2.1 _ normal unmarked⟩

end SchemaTrace.Comment
