import SchemaTrace.Proofs.Comment.Written

/-! Written prose is found again. Whatever the margin and whichever the style, the scan finds one
comment, and cleaning gives the lines back as they were. -/

namespace SchemaTrace.Comment

open Text List

variable {margin first : Text} {more : List Text} {style : Style}

theorem joinLines_written (margin first : Text) (more : List Text) (style : Style) :
    joinLines (style.written margin (first :: more)) =
      margin ++ joinLines (style.opened margin first more) := by
  cases style with
  | line => exact joinLines_append_cons margin (marked ['/', '/'] first) _
  | block => exact joinLines_append_cons margin ['/', '*', '*'] _

theorem not_closes_marked {marker line : Text} (bare : ¬['*', '/'] <:+: marker)
    (opened : ¬['*', '/'] <:+: line) : ¬['*', '/'] <:+: marked marker line := by
  unfold marked
  split
  · exact bare
  · intro found
    rcases infix_or_infix_of_infix_append_cons found (by decide) with inMarker | inLine
    · exact bare inMarker
    · exact opened inLine

theorem not_mem_margin (blank : ∀ c ∈ margin, isBlank c = true) {c : Char}
    (solid : isBlank c = false) : c ∉ margin := by
  intro member
  rw [blank c member] at solid
  cases solid

theorem newline_not_mem_marked {marker line : Text} (bare : '\n' ∉ marker) (oneLine : '\n' ∉ line) :
    '\n' ∉ marked marker line := by
  unfold marked
  split
  · exact bare
  · simp [bare, oneLine]

theorem margin_append_marked (margin marker line : Text) :
    margin ++ marked marker line = marked (margin ++ marker) line := by
  cases line with
  | nil => rfl
  | cons c line => exact (append_assoc margin marker (' ' :: c :: line)).symm

theorem newline_not_mem_margin (blank : ∀ c ∈ margin, isBlank c = true) {marker line : Text}
    (bare : '\n' ∉ marker) (oneLine : '\n' ∉ line) : '\n' ∉ margin ++ marked marker line := by
  rw [margin_append_marked]
  apply newline_not_mem_marked _ oneLine
  simp [not_mem_margin blank (c := '\n') (by decide), bare]

theorem not_closes_margin (blank : ∀ c ∈ margin, isBlank c = true) {marker : Text} {c : Char}
    (delimiter : c ∈ ['*', '/']) (solid : isBlank c = false) (absent : c ∉ marker) :
    ¬['*', '/'] <:+: margin ++ marker := by
  intro found
  rcases mem_append.mp (found.subset delimiter) with inside | inside
  · exact not_mem_margin blank solid inside
  · exact absent inside

theorem not_closes_line (blank : ∀ c ∈ margin, isBlank c = true) {line : Text}
    (opened : ¬['*', '/'] <:+: line) : ¬['*', '/'] <:+: margin ++ marked ['/', '/'] line := by
  rw [margin_append_marked]
  apply not_closes_marked _ opened
  exact not_closes_margin blank (c := '*') (by decide) (by decide) (by decide)

theorem not_closes_block (blank : ∀ c ∈ margin, isBlank c = true) {line : Text}
    (opened : ¬['*', '/'] <:+: line) : ¬['*', '/'] <:+: margin ++ marked [' ', '*'] line := by
  rw [margin_append_marked]
  apply not_closes_marked _ opened
  exact not_closes_margin blank (c := '/') (by decide) (by decide) (by decide)

theorem not_infix_joinLines {needle : Text} {lines : List Text} (nonempty : needle ≠ [])
    (oneLine : '\n' ∉ needle) (absent : ∀ line ∈ lines, ¬needle <:+: line) :
    ¬needle <:+: joinLines lines := by
  intro found
  obtain ⟨line, member, inside⟩ := exists_infix_of_infix_joinLines nonempty oneLine found
  exact absent line member inside

def blockBody (margin : Text) (lines : List Text) : Text :=
  joinLines (['*'] ::
    (lines.map (fun line => margin ++ marked [' ', '*'] line) ++ [margin ++ [' ']]))

theorem opened_line_eq (margin first : Text) (more : List Text) :
    joinLines (Style.line.opened margin first more) =
      '/' :: '/' :: joinLines (marked [] first ::
        more.map fun line => margin ++ marked ['/', '/'] line) := by
  have cut : marked ['/', '/'] first = ['/', '/'] ++ marked [] first := by
    cases first with
    | nil => rfl
    | cons c first => rfl
  rw [Style.opened, cut, joinLines_append_cons]
  rfl

theorem opened_block_eq (margin first : Text) (more : List Text) :
    joinLines (Style.block.opened margin first more) =
      '/' :: '*' :: (blockBody margin (first :: more) ++ ['*', '/']) := by
  have last : margin ++ [' ', '*', '/'] = margin ++ [' '] ++ ['*', '/'] := by
    rw [append_assoc]
    rfl
  have closing := joinLines_append_last (['*'] ::
    (first :: more).map fun line => margin ++ marked [' ', '*'] line) (margin ++ [' ']) ['*', '/']
  rw [Style.opened, last, show ['/', '*', '*'] = ['/', '*'] ++ ['*'] from rfl,
    joinLines_append_cons]
  rw [cons_append, cons_append] at closing
  rw [closing]
  rfl

theorem not_closes_blockBody (blank : ∀ c ∈ margin, isBlank c = true)
    (opened : ∀ line ∈ first :: more, ¬['*', '/'] <:+: line) :
    ¬['*', '/'] <:+: blockBody margin (first :: more) := by
  apply not_infix_joinLines (by decide) (by decide)
  intro line member
  rcases mem_cons.mp member with rfl | later
  · decide
  · rcases mem_append.mp later with marked | last
    · obtain ⟨plain, listed, rfl⟩ := mem_map.mp marked
      exact not_closes_block blank (opened plain listed)
    · rw [mem_singleton.mp last]
      exact not_closes_margin blank (c := '/') (by decide) (by decide) (by decide)

theorem marked_nil_eq_nil_iff {line : Text} : marked [] line = [] ↔ line = [] := by
  cases line with
  | nil => simp [marked]
  | cons c line => simp [marked]

theorem IsProse.first_ne_nil (prose : IsProse (first :: more)) : first ≠ [] := by
  obtain ⟨c, rest, rfl, -⟩ := prose.first first rfl
  exact cons_ne_nil c rest

theorem IsProse.dropEmptyEdges_eq (prose : IsProse (first :: more)) (before after : List Text)
    (empty : ∀ line ∈ before ++ after, line = []) {f : Text → Text}
    (holds : ∀ line, f line = [] ↔ line = []) :
    dropEmptyEdges (before ++ (first :: more).map f ++ after) = (first :: more).map f := by
  apply dropEmptyEdges_of_edges (by simp) empty
  · intro line member
    obtain rfl := Option.some.inj member
    exact (holds first).not.mpr prose.first_ne_nil
  · intro line member
    rw [getLast?_map, Option.mem_def, Option.map_eq_some_iff] at member
    obtain ⟨plain, last, rfl⟩ := member
    exact (holds plain).not.mpr (prose.last plain last)

theorem proseLines_of_body {raw : Text} {lines : List Text} (inner : body raw = joinLines lines)
    (oneLine : ∀ line ∈ lines, '\n' ∉ line) (nonempty : lines ≠ []) :
    proseLines raw = dropEmptyEdges (cleanLines (afterOpening? raw).isSome lines) := by
  rw [proseLines, inner, splitLines_joinLines oneLine nonempty]

/-! ### Line comments -/

theorem afterOpening?_line (margin first : Text) (more : List Text) :
    afterOpening? (joinLines (Style.line.opened margin first more)) = none := by
  rw [opened_line_eq]
  rfl

theorem newline_not_mem_others (prose : IsProse (first :: more))
    (blank : ∀ c ∈ margin, isBlank c = true) :
    ∀ line ∈ more.map fun line => margin ++ marked ['/', '/'] line, '\n' ∉ line := by
  intro line member
  obtain ⟨plain, listed, rfl⟩ := mem_map.mp member
  exact newline_not_mem_margin blank (by decide)
    (prose.plain plain (mem_cons_of_mem first listed)).oneLine

theorem body_line (prose : IsProse (first :: more)) (blank : ∀ c ∈ margin, isBlank c = true) :
    body (joinLines (Style.line.opened margin first more)) =
      joinLines (Style.line.opened margin first more) := by
  have unclosed : ¬['*', '/'] <:+: joinLines (Style.line.opened margin first more) := by
    apply not_infix_joinLines (by decide) (by decide)
    intro line member
    rcases mem_cons.mp member with rfl | later
    · exact not_closes_marked (by decide) (prose.plain first mem_cons_self).opened
    · obtain ⟨plain, listed, rfl⟩ := mem_map.mp later
      exact not_closes_line blank (prose.plain plain (mem_cons_of_mem first listed)).opened
  rw [body, afterOpening?_line, Option.getD_none]
  cases closed : before? ['*', '/'] (joinLines (Style.line.opened margin first more)) with
  | none => rfl
  | some rest => exact absurd ⟨rest, [], by simp [before?_eq_some_iff.mp closed]⟩ unclosed

theorem cleanLines_line (prose : IsProse (first :: more)) (blank : ∀ c ∈ margin, isBlank c = true) :
    cleanLines false (Style.line.opened margin first more) = (first :: more).map (marked []) := by
  rw [Style.opened, cleanLines, map_cons, map_map]
  congr 1
  · exact cleanLine_line [] (by simp) (prose.plain first mem_cons_self)
  · apply map_congr_left
    intro line listed
    exact cleanLine_line margin blank (prose.plain line (mem_cons_of_mem first listed))

theorem proseLines_line (prose : IsProse (first :: more)) (blank : ∀ c ∈ margin, isBlank c = true) :
    proseLines (joinLines (Style.line.opened margin first more)) =
      (first :: more).map (marked []) := by
  have oneLine : ∀ line ∈ Style.line.opened margin first more, '\n' ∉ line :=
    forall_mem_cons.mpr
      ⟨newline_not_mem_marked (by decide) (prose.plain first mem_cons_self).oneLine,
        newline_not_mem_others prose blank⟩
  have edges := prose.dropEmptyEdges_eq [] [] (by simp) fun _ => marked_nil_eq_nil_iff
  rw [nil_append, append_nil] at edges
  rw [proseLines_of_body (body_line prose blank) oneLine (cons_ne_nil _ _), afterOpening?_line,
    Option.isSome_none, cleanLines_line prose blank, edges]

/-! ### Block comments -/

def innerLines (margin : Text) (lines : List Text) : List Text :=
  [] :: (lines.map (fun line => margin ++ marked [' ', '*'] line) ++ [margin ++ [' ']])

theorem afterOpening?_block (margin first : Text) (more : List Text) :
    afterOpening? (joinLines (Style.block.opened margin first more)) =
      some (joinLines (innerLines margin (first :: more)) ++ ['*', '/']) := by
  have split : blockBody margin (first :: more) =
      '*' :: joinLines (innerLines margin (first :: more)) := joinLines_append_cons ['*'] [] _
  rw [opened_block_eq, split]
  rfl

theorem body_block (margin first : Text) (more : List Text) :
    body (joinLines (Style.block.opened margin first more)) =
      joinLines (innerLines margin (first :: more)) := by
  rw [body, afterOpening?_block, Option.getD_some, before?_eq_some_iff.mpr rfl, Option.getD_some]

theorem newline_not_mem_innerLines (prose : IsProse (first :: more))
    (blank : ∀ c ∈ margin, isBlank c = true) :
    ∀ line ∈ innerLines margin (first :: more), '\n' ∉ line := by
  intro line member
  rcases mem_cons.mp member with rfl | later
  · exact not_mem_nil
  · rcases mem_append.mp later with inside | last
    · obtain ⟨plain, listed, rfl⟩ := mem_map.mp inside
      exact newline_not_mem_margin blank (by decide) (prose.plain plain listed).oneLine
    · rw [mem_singleton.mp last]
      simp [not_mem_margin blank (c := '\n') (by decide)]

theorem cleanLines_innerLines (prose : IsProse (first :: more))
    (blank : ∀ c ∈ margin, isBlank c = true) :
    cleanLines true (innerLines margin (first :: more)) =
      [[]] ++ (first :: more).map id ++ [[]] := by
  have closing : cleanLine false (margin ++ [' ']) = [] := cleanLine_of_blank (by
    simpa [or_imp, forall_and] using ⟨blank, by decide⟩)
  have lines : (first :: more).map
      (fun line => cleanLine false (margin ++ marked [' ', '*'] line)) =
        (first :: more).map id := by
    apply map_congr_left
    intro line listed
    exact cleanLine_block blank (prose.plain line listed)
  rw [innerLines, cleanLines, map_append, map_map, Function.comp_def, lines, map_singleton, closing]
  rfl

theorem proseLines_block (prose : IsProse (first :: more))
    (blank : ∀ c ∈ margin, isBlank c = true) :
    proseLines (joinLines (Style.block.opened margin first more)) = first :: more := by
  have edges := prose.dropEmptyEdges_eq [[]] [[]] (by simp) (f := id) fun _ => Iff.rfl
  rw [proseLines_of_body (body_block margin first more) (newline_not_mem_innerLines prose blank)
    (cons_ne_nil _ _), afterOpening?_block, Option.isSome_some, cleanLines_innerLines prose blank,
    edges, map_id]

/-! ### The indentation -/

theorem IsProse.trim_first_ne_nil (prose : IsProse (first :: more)) : trim first ≠ [] := by
  obtain ⟨c, rest, rfl, solid⟩ := prose.first first rfl
  exact trim_ne_nil_of_cons solid

theorem IsProse.indentation_first (prose : IsProse (first :: more)) : indentation first = 0 := by
  obtain ⟨c, rest, rfl, solid⟩ := prose.first first rfl
  have stops : isBlank c = false := by
    cases blank : isBlank c with
    | false => rfl
    | true =>
      rw [isWhitespace_of_isBlank blank] at solid
      cases solid
  exact indentation_cons_of_solid stops

theorem indentation_marked_nil {line : Text} (nonempty : line ≠ []) :
    indentation (marked [] line) = 1 + indentation line := by
  obtain ⟨c, rest, rfl⟩ := exists_cons_of_ne_nil nonempty
  exact congrArg byteLength (takeWhile_cons_of_pos (p := isBlank) (a := ' ') (by decide))

theorem commonIndentation_marked_nil (prose : IsProse (first :: more)) :
    commonIndentation ((first :: more).map (marked [])) = 1 := by
  have own : indentation (marked [] first) = 1 := by
    rw [indentation_marked_nil prose.first_ne_nil, prose.indentation_first]
  rw [← own]
  apply commonIndentation_eq (mem_map_of_mem mem_cons_self)
  · rw [trim, trimStart_marked_nil]
    exact prose.trim_first_ne_nil
  · intro other member filled
    obtain ⟨line, listed, rfl⟩ := mem_map.mp member
    have nonempty : line ≠ [] := by
      rintro rfl
      exact filled rfl
    rw [own, indentation_marked_nil nonempty]
    exact Nat.le_add_right 1 _

theorem dedent_marked_nil (lines : List Text) : dedent 1 (lines.map (marked [])) = lines := by
  have each (line : Text) : (fromByte? 1 (marked [] line)).getD [] = line := by
    cases line with
    | nil => rfl
    | cons c line => exact congrArg (Option.getD · []) (fromByte?_append [' '] (c :: line))
  rw [dedent, map_map]
  simp [Function.comp_def, each]

theorem dedent_zero (lines : List Text) : dedent 0 lines = lines := by
  have each (line : Text) : (fromByte? 0 line).getD [] = line := by
    cases line with
    | nil => rfl
    | cons c line => rfl
  simp [dedent, each]

/-- Cleaning gives the prose back, in either style and whatever the margin. -/
theorem clean_opened (prose : IsProse (first :: more)) (blank : ∀ c ∈ margin, isBlank c = true)
    (style : Style) :
    clean (joinLines (style.opened margin first more)) = joinLines (first :: more) := by
  cases style with
  | line =>
    simp only [clean, proseLines_line prose blank, commonIndentation_marked_nil prose,
      dedent_marked_nil]
  | block =>
    have none : commonIndentation (first :: more) = 0 := by
      rw [commonIndentation_eq mem_cons_self prose.trim_first_ne_nil, prose.indentation_first]
      intro other _ _
      rw [prose.indentation_first]
      exact Nat.zero_le _
    simp only [clean, proseLines_block prose blank, none, dedent_zero]

/-! ### The scan -/

theorem lineRun_opened (prose : IsProse (first :: more)) (blank : ∀ c ∈ margin, isBlank c = true)
    {after : Text} (ends : after = [] ∨ ∃ rest, after = '\n' :: rest ∧ Silent rest) :
    lineRun (joinLines (marked [] first :: more.map fun line => margin ++ marked ['/', '/'] line) ++
      after) = (joinLines (marked [] first ::
        more.map fun line => margin ++ marked ['/', '/'] line), after) := by
  have oneLine : '\n' ∉ marked [] first :=
    newline_not_mem_marked not_mem_nil (prose.plain first mem_cons_self).oneLine
  have begins : ∀ line ∈ more.map fun line => margin ++ marked ['/', '/'] line,
      ['/', '/'] <+: line.dropWhile isBlank := by
    intro line member
    obtain ⟨plain, -, rfl⟩ := mem_map.mp member
    rw [dropWhile_append_of_pos blank]
    cases plain with
    | nil => exact prefix_rfl
    | cons c plain => exact prefix_append ['/', '/'] (' ' :: c :: plain)
  have stops : after = [] ∨
      ∃ next, after = '\n' :: next ∧ ¬['/', '/'] <+: next.dropWhile isBlank := by
    refine ends.imp_right ?_
    rintro ⟨next, rfl, silent⟩
    exact ⟨next, rfl, fun starts => silent.line (starts.isInfix.trans (dropWhile_suffix _).isInfix)⟩
  exact lineRun_joinLines oneLine (newline_not_mem_others prose blank) begins stops

/-- The scan finds one comment: the written prose from its opening on. -/
theorem spans_written (prose : IsProse (first :: more)) (blank : ∀ c ∈ margin, isBlank c = true)
    (style : Style) {before after : Text} (ownLine : before = [] ∨ before.getLast? = some '\n')
    (silent : Silent before) (ends : after = [] ∨ ∃ rest, after = '\n' :: rest ∧ Silent rest) :
    spans (before ++ joinLines (style.written margin (first :: more)) ++ after) =
      [⟨style.shape, byteLength (before ++ margin),
        joinLines (style.opened margin first more)⟩] := by
  have quiet : Silent after := by
    rcases ends with rfl | ⟨rest, rfl, silent⟩
    · exact ⟨by simp, by simp⟩
    · exact silent.newline
  rw [spans, joinLines_written, ← append_assoc, append_assoc (before ++ margin),
    spansFrom_margin ownLine silent blank]
  cases style with
  | line =>
    rw [opened_line_eq, cons_append, cons_append, spansFrom.eq_3, if_pos rfl,
      lineRun_opened prose blank ends]
    simp only
    rw [spansFrom_of_silent _ _ quiet]
    rfl
  | block =>
    have opened : ∀ line ∈ first :: more, ¬['*', '/'] <:+: line :=
      fun line listed => (prose.plain line listed).opened
    have closed := closeBlock_of_open (not_closes_blockBody blank opened) after
    have goesOn : blockBody margin (first :: more) ++ ['*', '/'] ++ after =
        blockBody margin (first :: more) ++ '*' :: '/' :: after := by simp
    rw [opened_block_eq, cons_append, cons_append, spansFrom.eq_2, goesOn, closed]
    simp only
    rw [spansFrom_of_silent _ _ quiet]
    rfl

end SchemaTrace.Comment
