import SchemaTrace.Proofs.Comment.Span
import SchemaTrace.Proofs.Text.Pieces

/-! The scan for comments on a text whose parts are known. It passes over a text in which no comment
begins; a run of comment lines ends before the first line that is none, and a block comment at its
first closing delimiter. -/

namespace SchemaTrace.Comment

open Text List

/-- A text in which no comment begins. -/
structure Silent (t : Text) : Prop where
  block : ¬['/', '*'] <:+: t
  line : ¬['/', '/'] <:+: t

theorem Silent.tail {c : Char} {t : Text} (silent : Silent (c :: t)) : Silent t where
  block found := silent.block (found.trans (suffix_cons c t).isInfix)
  line found := silent.line (found.trans (suffix_cons c t).isInfix)

theorem Silent.newline {t : Text} (silent : Silent t) : Silent ('\n' :: t) where
  block found := by
    rcases infix_cons_iff.mp found with starts | inside
    · exact absurd (cons_prefix_cons.mp starts).1 (by decide)
    · exact silent.block inside
  line found := by
    rcases infix_cons_iff.mp found with starts | inside
    · exact absurd (cons_prefix_cons.mp starts).1 (by decide)
    · exact silent.line inside

/-! ### Outside of comments -/

theorem spansFrom_outside {c : Char} {t : Text} (block : ¬['/', '*'] <+: c :: t)
    (line : ¬['/', '/'] <+: c :: t) (alone : Bool) (offset : Nat) :
    spansFrom alone offset (c :: t) =
      spansFrom (c = '\n' || (alone && isBlank c)) (offset + c.utf8Size) t := by
  apply spansFrom.eq_4
  · rintro rest rfl rfl
    exact block (prefix_append ['/', '*'] rest)
  · rintro rest rfl rfl
    exact line (prefix_append ['/', '/'] rest)

theorem spansFrom_of_silent (alone : Bool) (offset : Nat) {t : Text} (silent : Silent t) :
    spansFrom alone offset t = [] := by
  induction t generalizing alone offset with
  | nil => exact spansFrom.eq_1 alone offset
  | cons c t ih =>
    have block : ¬['/', '*'] <+: c :: t := fun starts => silent.block starts.isInfix
    have line : ¬['/', '/'] <+: c :: t := fun starts => silent.line starts.isInfix
    rw [spansFrom_outside block line]
    exact ih _ _ silent.tail

theorem starts_before_newline {a b c : Char} {lines rest : Text} (notNewline : b ≠ '\n')
    (starts : [a, b] <+: c :: (lines ++ '\n' :: rest)) : [a, b] <+: c :: (lines ++ ['\n']) := by
  cases lines with
  | nil =>
    simp only [nil_append, cons_prefix_cons] at starts
    exact absurd starts.2.1 notNewline
  | cons d lines => simpa [cons_prefix_cons] using starts

theorem spansFrom_silent_lines (alone : Bool) (offset : Nat) {lines : Text}
    (silent : Silent (lines ++ ['\n'])) (rest : Text) :
    spansFrom alone offset (lines ++ '\n' :: rest) =
      spansFrom true (offset + byteLength (lines ++ ['\n'])) rest := by
  induction lines generalizing alone offset with
  | nil =>
    rw [nil_append, spansFrom_outside (by simp [cons_prefix_cons]) (by simp [cons_prefix_cons])]
    rfl
  | cons c lines ih =>
    have block : ¬['/', '*'] <+: c :: (lines ++ '\n' :: rest) := fun starts =>
      silent.block (starts_before_newline (by decide) starts).isInfix
    have line : ¬['/', '/'] <+: c :: (lines ++ '\n' :: rest) := fun starts =>
      silent.line (starts_before_newline (by decide) starts).isInfix
    rw [cons_append, spansFrom_outside block line, ih _ _ silent.tail, cons_append, byteLength,
      Nat.add_assoc]

theorem spansFrom_blank (offset : Nat) {margin : Text} (blank : ∀ c ∈ margin, isBlank c = true)
    (rest : Text) :
    spansFrom true offset (margin ++ rest) = spansFrom true (offset + byteLength margin) rest := by
  induction margin generalizing offset with
  | nil => rfl
  | cons c margin ih =>
    have own := blank c mem_cons_self
    have outside (d : Char) : ¬['/', d] <+: c :: (margin ++ rest) := by
      intro starts
      rw [← (cons_prefix_cons.mp starts).1] at own
      exact absurd own (by decide)
    rw [cons_append, spansFrom_outside (outside '*') (outside '/'), own, Bool.and_self,
      Bool.or_true, ih _ fun d member => blank d (mem_cons_of_mem c member), byteLength,
      Nat.add_assoc]

/-- The scan reaches a comment that stands alone behind lines without comments. -/
theorem spansFrom_margin {before margin : Text}
    (ownLine : before = [] ∨ before.getLast? = some '\n')
    (silent : Silent before) (blank : ∀ c ∈ margin, isBlank c = true) (rest : Text) :
    spansFrom true 0 (before ++ margin ++ rest) =
      spansFrom true (byteLength (before ++ margin)) rest := by
  have start : spansFrom true 0 (before ++ (margin ++ rest)) =
      spansFrom true (byteLength before) (margin ++ rest) := by
    rcases ownLine with rfl | ends
    · rfl
    · obtain ⟨lines, rfl⟩ := getLast?_eq_some_iff.mp ends
      have passed := spansFrom_silent_lines true 0 silent (margin ++ rest)
      rw [Nat.zero_add] at passed
      rw [append_assoc]
      exact passed
  rw [append_assoc, start, spansFrom_blank _ blank, byteLength_append]

/-! ### The end of a comment -/

theorem closeBlock_of_open {body : Text} (opened : ¬['*', '/'] <:+: body) (rest : Text) :
    closeBlock (body ++ '*' :: '/' :: rest) = (body ++ ['*', '/'], rest) := by
  induction body with
  | nil => simp [closeBlock]
  | cons c body ih =>
    have still := ih fun found => opened (found.trans (suffix_cons c body).isInfix)
    have here : ¬(c = '*' ∧ (body ++ '*' :: '/' :: rest).head? = some '/') := by
      rintro ⟨rfl, next⟩
      cases body with
      | nil => cases next
      | cons d body =>
        obtain rfl := Option.some.inj next
        exact opened (prefix_append ['*', '/'] body).isInfix
    simp only [cons_append, closeBlock, Bool.and_eq_true, decide_eq_true_eq, here, if_false, still]

theorem restOfLine_append_of_newline {line rest : Text} (oneLine : '\n' ∉ line)
    (ends : ∀ c ∈ rest.head?, c = '\n') : restOfLine (line ++ rest) = (line, rest) := by
  have inside : ∀ c ∈ line, decide (c ≠ '\n') = true := by
    intro c member
    exact decide_eq_true fun newline => oneLine (newline ▸ member)
  have stops : ∀ c ∈ rest.head?, decide (c ≠ '\n') = false := by
    intro c member
    simp [ends c member]
  obtain ⟨taken, dropped⟩ := takeWhile_append_of_head inside stops
  rw [restOfLine, taken, dropped]

theorem restOfLine_of_newline_not_mem {line : Text} (oneLine : '\n' ∉ line) :
    restOfLine line = (line, []) := by
  have cut : restOfLine (line ++ []) = (line, []) := restOfLine_append_of_newline oneLine (by simp)
  rwa [append_nil] at cut

theorem lineRun_eq (t : Text) :
    lineRun t = match (restOfLine t).2 with
      | [] => ((restOfLine t).1, [])
      | newline :: next =>
        if startsWith ['/', '/'] (next.dropWhile isBlank) then
          ((restOfLine t).1 ++ newline :: (lineRun next).1, (lineRun next).2)
        else ((restOfLine t).1, newline :: next) := by
  rw [lineRun]
  simp only [restOfLine]
  split
  · next none => rw [none]
  · next newline next eq => rw [eq]

theorem marked_append {line : Text} (marked : ['/', '/'] <+: line.dropWhile isBlank) (rest : Text) :
    ['/', '/'] <+: (line ++ rest).dropWhile isBlank := by
  have nonempty : (line.dropWhile isBlank).isEmpty = false :=
    isEmpty_eq_false_iff.mpr
      (ne_nil_of_length_pos (Nat.lt_of_lt_of_le (by decide) marked.length_le))
  rw [dropWhile_append, nonempty]
  exact marked.trans (prefix_append _ rest)

/-- A run of lines that all begin with a marker, of which the first was cut off. -/
theorem lineRun_joinLines {first rest : Text} {more : List Text} (oneLine : '\n' ∉ first)
    (others : ∀ line ∈ more, '\n' ∉ line)
    (marked : ∀ line ∈ more, ['/', '/'] <+: line.dropWhile isBlank)
    (ends : rest = [] ∨ ∃ next, rest = '\n' :: next ∧ ¬['/', '/'] <+: next.dropWhile isBlank) :
    lineRun (joinLines (first :: more) ++ rest) = (joinLines (first :: more), rest) := by
  induction more generalizing first with
  | nil =>
    rw [joinLines, intercalate_singleton]
    rcases ends with rfl | ⟨next, rfl, stops⟩
    · rw [lineRun_eq, restOfLine_append_of_newline oneLine (by simp)]
    · rw [lineRun_eq, restOfLine_append_of_newline oneLine (by simp)]
      exact if_neg (mt startsWith_eq_true_iff.mp stops)
  | cons second more ih =>
    have later := ih (others second mem_cons_self)
      (fun line member => others line (mem_cons_of_mem second member))
      (fun line member => marked line (mem_cons_of_mem second member))
    have goesOn : ['/', '/'] <+: (joinLines (second :: more) ++ rest).dropWhile isBlank := by
      obtain ⟨behind, eq⟩ := prefix_joinLines second more
      rw [← eq, append_assoc]
      exact marked_append (marked second mem_cons_self) _
    have cut : restOfLine (joinLines (first :: second :: more) ++ rest) =
        (first, '\n' :: (joinLines (second :: more) ++ rest)) := by
      rw [joinLines_cons_cons, append_assoc, cons_append]
      exact restOfLine_append_of_newline oneLine (by simp)
    rw [lineRun_eq, cut]
    simp only
    rw [if_pos (startsWith_eq_true_iff.mpr goesOn), later, joinLines_cons_cons]

end SchemaTrace.Comment
