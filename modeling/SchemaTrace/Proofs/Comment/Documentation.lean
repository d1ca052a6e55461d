import SchemaTrace.Proofs.Comment.Exact
import SchemaTrace.Proofs.Comment.Recovered

/-! Documentation of a symbol, written in a comment of its own in either style. Reading the text
gives one annotation: that symbol, where the comment begins, with the notes as they were written. -/

namespace SchemaTrace.Comment

open Text List

/-- A symbol and notes about it, to be written behind a margin of spaces and tabs. -/
structure Documentation where
  margin : Text
  symbol : Text
  notes : List Text
  blank : ∀ c ∈ margin, isBlank c = true
  run : ∀ c ∈ symbol, isSymbolChar c = true
  symbol_ne_nil : symbol ≠ []
  starts : symbol.head? ≠ some '.'
  ends : symbol.getLast? ≠ some '.'
  plain : ∀ line ∈ notes, IsPlain line
  untagged : ∀ line ∈ notes, ¬defaultTag.toList <:+: line
  last : ∀ line ∈ notes.getLast?, line ≠ []

namespace Documentation

def heading (d : Documentation) : Text := defaultTag.toList ++ ' ' :: d.symbol

def written (d : Documentation) (style : Style) : Text :=
  joinLines (style.written d.margin (d.heading :: d.notes))

def annotation (d : Documentation) (before : Text) : Annotation where
  position := ⟨before.count '\n' + 1, d.margin.length + 1⟩
  text := String.ofList (joinLines (d.symbol :: d.notes))
  contentful := !d.notes.isEmpty

variable (d : Documentation)

theorem not_mem_symbol {c : Char} (other : isSymbolChar c = false) : c ∉ d.symbol := by
  intro member
  rw [d.run c member] at other
  cases other

theorem not_mem_heading {c : Char} (other : isSymbolChar c = false) (space : c ≠ ' ')
    (untagged : c ∉ defaultTag.toList) : c ∉ d.heading := by
  simp [heading, untagged, space, d.not_mem_symbol other]

theorem isWhitespace_symbol {c : Char} (member : c ∈ d.symbol) : isWhitespace c = false :=
  isWhitespace_of_isSymbolChar (d.run c member)

theorem getLast?_heading : d.heading.getLast? = d.symbol.getLast? := by
  obtain ⟨c, rest, eq⟩ := exists_cons_of_ne_nil d.symbol_ne_nil
  rw [heading, getLast?_append_of_ne_nil _ (cons_ne_nil _ _), eq, getLast?_cons_cons]

theorem isPlain_heading : IsPlain d.heading where
  oneLine := d.not_mem_heading (by decide +kernel) (by decide) (by decide)
  opened found :=
    d.not_mem_heading (by decide +kernel) (by decide) (by decide) (found.subset mem_cons_self)
  trimmed c member := by
    rw [getLast?_heading] at member
    exact d.isWhitespace_symbol (mem_of_getLast? member)
  unstarred starts := absurd (Option.some.inj starts) (by decide)

theorem isProse : IsProse (d.heading :: d.notes) where
  plain line member := by
    rcases mem_cons.mp member with rfl | note
    · exact d.isPlain_heading
    · exact d.plain line note
  first line member := by
    obtain rfl := Option.some.inj member
    exact ⟨'@', _, rfl, by decide⟩
  last line member := by
    cases listed : d.notes with
    | nil =>
      rw [listed] at member
      obtain rfl := Option.some.inj member
      exact cons_ne_nil _ _
    | cons note notes =>
      rw [listed, getLast?_cons_cons, ← listed] at member
      exact d.last line member

def behind : Text := joinLines ([] :: d.notes)

theorem joinLines_symbol : joinLines (d.symbol :: d.notes) = d.symbol ++ d.behind := by
  have split := joinLines_append_cons d.symbol [] d.notes
  rwa [append_nil] at split

theorem joinLines_heading :
    joinLines (d.heading :: d.notes) =
      defaultTag.toList ++ ([' '] ++ (d.symbol ++ []) ++ d.behind) := by
  have split := joinLines_append_cons (defaultTag.toList ++ ' ' :: d.symbol) [] d.notes
  rw [append_nil] at split
  rw [heading, split]
  simp [behind]

theorem behind_eq_nil_iff : d.behind = [] ↔ d.notes = [] := by
  unfold behind
  cases d.notes with
  | nil => simp [joinLines]
  | cons note notes => simp [joinLines_cons_cons]

theorem head?_behind : ∀ c ∈ d.behind.head?, c = '\n' := by
  unfold behind
  cases d.notes with
  | nil => simp [joinLines]
  | cons note notes => simp [joinLines_cons_cons]

theorem not_infix_behind : ¬defaultTag.toList <:+: d.behind := by
  apply not_infix_joinLines (by decide) (by decide)
  intro line member
  rcases mem_cons.mp member with rfl | note
  · decide
  · exact d.untagged line note

theorem follows : Follows [' '] d.symbol [] d.behind where
  gap_ne_nil := cons_ne_nil _ _
  whitespace c member := by
    rw [mem_singleton.mp member]
    decide
  run := by
    rw [append_nil]
    exact d.run
  maximal c member := by
    rw [d.head?_behind c member]
    decide +kernel
  dots := by simp
  symbol_ne_nil := d.symbol_ne_nil
  starts := d.starts
  ends := d.ends

theorem mentions_prose : mentions defaultTag.toList (joinLines (d.heading :: d.notes)) =
    [⟨d.symbol, byteLength (defaultTag.toList ++ [' '] ++ d.symbol)⟩] := by
  rw [joinLines_heading, mentions_of_follows (by decide) d.follows, nil_append,
    mentions_eq_nil d.not_infix_behind]

theorem withoutLeadingTag_prose :
    withoutLeadingTag defaultTag.toList (joinLines (d.heading :: d.notes)) =
      joinLines (d.symbol :: d.notes) := by
  have cut := after?_eq_some_iff.mpr d.joinLines_heading
  have solid : trimStart (d.symbol ++ d.behind) = d.symbol ++ d.behind := by
    obtain ⟨c, rest, eq⟩ := exists_cons_of_ne_nil d.symbol_ne_nil
    have stops : isWhitespace c = false := d.isWhitespace_symbol (eq ▸ mem_cons_self)
    rw [eq, cons_append, trimStart, dropWhile_cons_of_neg (by simp [stops])]
  rw [withoutLeadingTag, cut, joinLines_symbol, append_nil]
  exact solid

theorem byteLength_prose_gt : decide (byteLength (joinLines (d.heading :: d.notes)) >
    byteLength (defaultTag.toList ++ [' '] ++ d.symbol)) = !d.notes.isEmpty := by
  have split : joinLines (d.heading :: d.notes) =
      defaultTag.toList ++ [' '] ++ d.symbol ++ d.behind := by
    rw [joinLines_heading, append_nil]
    simp only [append_assoc]
  rw [split, byteLength_append _ d.behind]
  cases listed : d.notes with
  | nil =>
    rw [d.behind_eq_nil_iff.mpr listed]
    simp [byteLength]
  | cons note notes =>
    have filled : d.behind ≠ [] := d.behind_eq_nil_iff.not.mpr (listed ▸ cons_ne_nil note notes)
    have longer := byteLength_pos filled
    exact decide_eq_true (Nat.lt_add_of_pos_right longer)

theorem annotationsOf_written (lines : LineIndex) (shape : Shape) (start : Nat) {raw : Text}
    (prose : clean raw = joinLines (d.heading :: d.notes)) :
    annotationsOf defaultTag.toList lines ⟨shape, start, raw⟩ =
      [(d.symbol, ⟨lines.locate start, String.ofList (joinLines (d.symbol :: d.notes)),
        !d.notes.isEmpty⟩)] := by
  have mentioned : Mentions defaultTag.toList d.symbol (clean raw) :=
    ⟨[], _, prose, [' '], [], d.behind, d.joinLines_heading, d.follows⟩
  have held := contains_raw_of_mentions isMarker_defaultTag mentioned
  simp only [annotationsOf, if_pos held, prose, mentions_prose, withoutLeadingTag_prose,
    firstMentions, not_mem_nil, if_false, map_cons, map_nil, byteLength_prose_gt]

theorem after_append_margin {before : Text} (ownLine : before = [] ∨ before.getLast? = some '\n') :
    Position.after (before ++ d.margin) = (d.annotation before).position := by
  have noNewline : '\n' ∉ d.margin := not_mem_margin d.blank (by decide)
  have inside : ∀ c ∈ d.margin.reverse, decide (c ≠ '\n') = true := by
    intro c member
    exact decide_eq_true fun newline => noNewline (newline ▸ mem_reverse.mp member)
  have stops : ∀ c ∈ before.reverse.head?, decide (c ≠ '\n') = false := by
    intro c member
    rw [head?_reverse] at member
    rcases ownLine with rfl | ends
    · cases member
    · rw [ends] at member
      rw [← Option.some.inj member]
      decide
  rw [Position.after, count_append, count_eq_zero.mpr noNewline, reverse_append,
    (takeWhile_append_of_head inside stops).1, length_reverse]
  rfl

theorem annotations_written {before after : Text} (style : Style)
    (ownLine : before = [] ∨ before.getLast? = some '\n') (silent : Silent before)
    (ends : after = [] ∨ ∃ rest, after = '\n' :: rest ∧ Silent rest) :
    annotations defaultTag.toList (before ++ d.written style ++ after) =
      [(d.symbol, d.annotation before)] := by
  have cut : before ++ d.written style ++ after = (before ++ d.margin) ++
      (joinLines (style.opened d.margin d.heading d.notes) ++ after) := by
    rw [written, joinLines_written]
    simp only [append_assoc]
  have place : (LineIndex.ofText (before ++ d.written style ++ after)).locate
      (byteLength (before ++ d.margin)) = (d.annotation before).position := by
    rw [cut, LineIndex.locate_of_append, d.after_append_margin ownLine]
  have found : spans (before ++ d.written style ++ after) = [⟨style.shape,
      byteLength (before ++ d.margin), joinLines (style.opened d.margin d.heading d.notes)⟩] :=
    spans_written d.isProse d.blank style ownLine silent ends
  have prose := clean_opened d.isProse d.blank style
  rw [annotations_eq_flatMap isMarker_defaultTag, found, flatMap_singleton,
    d.annotationsOf_written _ _ _ prose, place]
  rfl

/-- The text has one annotation: of the symbol, where the comment begins, with the notes as they
were. -/
theorem parse_written {before after : Text} (style : Style)
    (ownLine : before = [] ∨ before.getLast? = some '\n') (silent : Silent before)
    (ends : after = [] ∨ ∃ rest, after = '\n' :: rest ∧ Silent rest) :
    (parse defaultTag.toList (before ++ d.written style ++ after)).toList =
      [(String.ofList d.symbol, [d.annotation before])] := by
  rw [parse, d.annotations_written style ownLine silent ends]
  rfl

end Documentation

def indentedNotes : Documentation where
  margin := "  ".toList
  symbol := "A.b".toList
  notes := ["note".toList, [], "  - nested".toList]
  blank := all_eq_true.mp rfl
  run := all_eq_true.mp (by decide +kernel)
  symbol_ne_nil := by decide
  starts := by decide
  ends := by decide
  plain := by
    intro line member
    simp only [mem_cons, not_mem_nil, or_false] at member
    rcases member with rfl | rfl | rfl
    · refine ⟨by decide, by decide, ?_, by decide⟩
      intro c member
      obtain rfl := Option.some.inj member
      decide
    · exact ⟨by decide, by decide, by simp, by decide⟩
    · refine ⟨by decide, by decide, ?_, by decide⟩
      intro c member
      obtain rfl := Option.some.inj member
      decide
  untagged := by decide
  last := by decide

theorem parse_indentedNotes :
    SortedMap.toList (parse defaultTag.toList
      "int a;\n  /**\n   * @cdp A.b\n   * note\n   *\n   *   - nested\n   */\nint b;\n".toList) =
      [("A.b", [⟨⟨2, 3⟩, "A.b\nnote\n\n  - nested", true⟩])] := by
  have quiet : Silent "int a;\n".toList := ⟨by decide, by decide⟩
  have quietly : Silent "int b;\n".toList := ⟨by decide, by decide⟩
  have text :
      "int a;\n  /**\n   * @cdp A.b\n   * note\n   *\n   *   - nested\n   */\nint b;\n".toList =
      "int a;\n".toList ++ indentedNotes.written .block ++ '\n' :: "int b;\n".toList := by
    decide +kernel
  have annotation : indentedNotes.annotation "int a;\n".toList =
      ⟨⟨2, 3⟩, "A.b\nnote\n\n  - nested", true⟩ := by
    decide +kernel
  have parsed := indentedNotes.parse_written .block (.inr rfl) quiet (.inr ⟨_, rfl, quietly⟩)
  rw [text, parsed, annotation]
  rfl

end SchemaTrace.Comment
