import SchemaTrace.Proofs.Comment.Scan

/-! The comments that a scan finds, token by token: how each of them begins and ends, and that no
delimiter that opens a comment is left outside of them. -/

namespace SchemaTrace.Comment

open Text List

def Opens (t : Text) : Prop := ['/', '/'] <+: t ∨ ['/', '*'] <+: t

theorem Opens.ne_nil {t : Text} (opens : Opens t) : t ≠ [] := by
  rintro rfl
  rcases opens with starts | starts
  · cases prefix_nil.mp starts
  · cases prefix_nil.mp starts

def lastLine (before : Text) : Text := (before.reverse.takeWhile (· ≠ '\n')).reverse

/-- Only spaces and tabs stand on the line that a text ends in. -/
def EndsBlank (before : Text) : Prop := ∀ c ∈ lastLine before, isBlank c = true

def IsMarked (line : Text) : Prop := ['/', '/'] <+: line.dropWhile isBlank

/-- The ways in which a comment stands between two texts. -/
inductive Delimited (before : Text) : Span → Text → Prop
  /-- A block ends just after the first closing delimiter behind its opening. -/
  | closed (inner rest : Text) : ¬['*', '/'] <:+: inner →
      Delimited before ⟨.block, byteLength before, ['/', '*'] ++ inner ++ ['*', '/']⟩ rest
  /-- A block that is never closed takes all. -/
  | unclosed (inner : Text) : ¬['*', '/'] <:+: inner →
      Delimited before ⟨.block, byteLength before, ['/', '*'] ++ inner⟩ []
  /-- Behind other text on its line a comment ends with the line. -/
  | trailing (line rest : Text) : ¬EndsBlank before → '\n' ∉ line → (∀ c ∈ rest.head?, c = '\n') →
      Delimited before ⟨.trailing, byteLength before, ['/', '/'] ++ line⟩ rest
  /-- A comment on a line of its own goes on over all lines behind it that begin with a marker. -/
  | lineRun (first : Text) (more : List Text) (rest : Text) : EndsBlank before →
      (∀ line ∈ first :: more, '\n' ∉ line) → (∀ line ∈ more, IsMarked line) →
      (rest = [] ∨ ∃ next, rest = '\n' :: next ∧ ¬IsMarked next) →
      Delimited before ⟨.lineRun, byteLength before, ['/', '/'] ++ joinLines (first :: more)⟩ rest

/-- The text behind `before` is cut into comments and characters at which no comment begins. -/
inductive Tokens : (before t : Text) → List Span → Prop
  | nil (before : Text) : Tokens before [] []
  | outside {before : Text} {c : Char} {t : Text} {found : List Span} :
      ¬Opens (c :: t) → Tokens (before ++ [c]) t found → Tokens before (c :: t) found
  | comment {before : Text} {s : Span} {t : Text} {found : List Span} :
      Delimited before s t → Tokens (before ++ s.raw) t found →
        Tokens before (s.raw ++ t) (s :: found)

/-! ### The end of a comment -/

theorem closes_cons_iff {c : Char} {t : Text} :
    ['*', '/'] <:+: c :: t ↔ (c = '*' ∧ t.head? = some '/') ∨ ['*', '/'] <:+: t := by
  rw [infix_cons_iff, cons_prefix_cons, eq_comm (a := '*')]
  cases t with
  | nil => simp
  | cons d t => simp [cons_prefix_cons, eq_comm]

theorem closeBlock_cases (t : Text) :
    (∃ inner rest, closeBlock t = (inner ++ ['*', '/'], rest) ∧ ¬['*', '/'] <:+: inner) ∨
      closeBlock t = (t, []) ∧ ¬['*', '/'] <:+: t := by
  induction t with
  | nil => exact .inr ⟨rfl, by decide⟩
  | cons c t ih =>
    by_cases here : c = '*' ∧ t.head? = some '/'
    · exact .inl ⟨[], t.tail, by simp [closeBlock, here], by decide⟩
    · have step : closeBlock (c :: t) = (c :: (closeBlock t).1, (closeBlock t).2) := by
        simp only [closeBlock, Bool.and_eq_true, decide_eq_true_eq, here, if_false]
      rw [step]
      rcases ih with ⟨inner, rest, cut, opened⟩ | ⟨cut, opened⟩
      · refine .inl ⟨c :: inner, rest, by rw [cut, cons_append], ?_⟩
        rw [closes_cons_iff]
        rintro (⟨rfl, next⟩ | found)
        · have whole := closeBlock_append t
          rw [cut, append_assoc] at whole
          have head : t.head? = some '/' := by rw [← whole, head?_append, next, Option.some_or]
          exact here ⟨rfl, head⟩
        · exact opened found
      · refine .inr ⟨by rw [cut], ?_⟩
        rw [closes_cons_iff]
        rintro (closes | found)
        · exact here closes
        · exact opened found

theorem newline_not_mem_restOfLine (t : Text) : '\n' ∉ (restOfLine t).1 := by
  intro member
  simpa using mem_takeWhile_imp member

theorem head_restOfLine (t : Text) : ∀ c ∈ (restOfLine t).2.head?, c = '\n' := by
  intro c member
  have stop := head?_dropWhile_not (· ≠ '\n') t
  rw [Option.mem_def, restOfLine] at member
  simp only [member] at stop
  simpa using stop

theorem pair_prefix_of_append {a b : Char} {t rest : Text} (nonempty : t ≠ [])
    (stops : ∀ c ∈ rest.head?, c ≠ b) (starts : [a, b] <+: t ++ rest) : [a, b] <+: t := by
  obtain ⟨c, t, rfl⟩ := exists_cons_of_ne_nil nonempty
  rw [cons_append, cons_prefix_cons] at starts
  rw [cons_prefix_cons]
  refine ⟨starts.1, ?_⟩
  cases t with
  | nil =>
    obtain ⟨more, eq⟩ := starts.2
    rw [nil_append] at eq
    exact absurd rfl (stops b (by rw [← eq]; rfl))
  | cons d t =>
    rw [cons_append, cons_prefix_cons] at starts
    exact cons_prefix_cons.mpr ⟨starts.2.1, nil_prefix⟩

theorem isMarked_append_iff {line rest : Text} (ends : ∀ c ∈ rest.head?, c = '\n') :
    IsMarked (line ++ rest) ↔ IsMarked line := by
  constructor
  · intro marked
    have stops : ∀ c ∈ rest.head?, c ≠ '/' := fun c member => ends c member ▸ by decide
    rw [IsMarked, dropWhile_append] at marked
    split at marked
    · next none =>
      cases rest with
      | nil => cases prefix_nil.mp marked
      | cons c rest =>
        obtain rfl := ends c rfl
        rw [dropWhile_cons_of_neg (by decide)] at marked
        exact absurd (cons_prefix_cons.mp marked).1 (by decide)
    · next some =>
      exact pair_prefix_of_append (by simpa using some) stops marked
  · intro marked
    exact marked_append marked rest

theorem exists_append_of_joinLines (first : Text) (more : List Text) {rest : Text}
    (ends : ∀ c ∈ rest.head?, c = '\n') :
    ∃ behind, joinLines (first :: more) ++ rest = first ++ behind ∧
      ∀ c ∈ behind.head?, c = '\n' := by
  cases more with
  | nil => exact ⟨rest, by rw [joinLines, intercalate_singleton], ends⟩
  | cons second more =>
    refine ⟨'\n' :: (joinLines (second :: more) ++ rest), ?_, by simp⟩
    rw [joinLines_cons_cons, append_assoc, cons_append]

theorem lineRun_cases (t : Text) :
    ∃ first more, (lineRun t).1 = joinLines (first :: more) ∧
      (∀ line ∈ first :: more, '\n' ∉ line) ∧ (∀ line ∈ more, IsMarked line) ∧
      ((lineRun t).2 = [] ∨ ∃ next, (lineRun t).2 = '\n' :: next ∧ ¬IsMarked next) := by
  fun_induction lineRun t with
  | case1 t none =>
    refine ⟨(restOfLine t).1, [], ?_, ?_, by simp, .inl rfl⟩
    · rw [joinLines, intercalate_singleton, restOfLine]
    · exact forall_mem_singleton.mpr (newline_not_mem_restOfLine t)
  | case2 t newline next some starts more rest cut ih =>
    obtain rfl : newline = '\n' := head_restOfLine t newline (by rw [restOfLine, some]; rfl)
    obtain ⟨second, others, whole, oneLine, marked, ends⟩ := ih
    rw [cut] at whole ends
    have newlineEnds : ∀ c ∈ rest.head?, c = '\n' := by
      rcases ends with rfl | ⟨last, rfl, -⟩
      · simp
      · simp
    -- The second line is the head of what follows the first newline, so the marker is its own.
    have secondMarked : IsMarked second := by
      obtain ⟨behind, split, stops⟩ := exists_append_of_joinLines second others newlineEnds
      have parts := lineRun_append next
      rw [cut, whole, split] at parts
      rw [← isMarked_append_iff stops, parts]
      exact startsWith_eq_true_iff.mp starts
    refine ⟨(restOfLine t).1, second :: others, ?_, ?_, ?_, ends⟩
    · rw [joinLines_cons_cons, ← whole, restOfLine]
    · exact forall_mem_cons.mpr ⟨newline_not_mem_restOfLine t, oneLine⟩
    · exact forall_mem_cons.mpr ⟨secondMarked, marked⟩
  | case3 t newline next some stops =>
    obtain rfl : newline = '\n' := head_restOfLine t newline (by rw [restOfLine, some]; rfl)
    refine ⟨(restOfLine t).1, [], ?_, ?_, by simp, .inr ⟨next, rfl, ?_⟩⟩
    · rw [joinLines, intercalate_singleton, restOfLine]
    · exact forall_mem_singleton.mpr (newline_not_mem_restOfLine t)
    · intro marked
      exact stops (startsWith_eq_true_iff.mpr marked)

/-! ### The line that a text ends in -/

theorem lastLine_concat (before : Text) (c : Char) :
    lastLine (before ++ [c]) = if c = '\n' then [] else lastLine before ++ [c] := by
  rw [lastLine, reverse_append, reverse_singleton, singleton_append, takeWhile_cons]
  by_cases newline : c = '\n' <;> simp [newline, lastLine]

theorem endsBlank_concat_iff {before : Text} {c : Char} :
    EndsBlank (before ++ [c]) ↔ c = '\n' ∨ (EndsBlank before ∧ isBlank c = true) := by
  rw [EndsBlank, lastLine_concat]
  by_cases newline : c = '\n'
  · simp [newline]
  · simp [newline, EndsBlank, or_imp, forall_and]

/-! ### One comment -/

variable {before t rest : Text} {s : Span} {found : List Span}

theorem delimited_block (before t : Text) :
    Delimited before ⟨.block, byteLength before, '/' :: '*' :: (closeBlock t).1⟩
      (closeBlock t).2 := by
  rcases closeBlock_cases t with ⟨inner, rest, cut, opened⟩ | ⟨cut, opened⟩
  · rw [cut]
    exact .closed inner rest opened
  · rw [cut]
    exact .unclosed t opened

theorem delimited_lineRun (t : Text) (alone : EndsBlank before) :
    Delimited before ⟨.lineRun, byteLength before, '/' :: '/' :: (lineRun t).1⟩ (lineRun t).2 := by
  obtain ⟨first, more, whole, oneLine, marked, ends⟩ := lineRun_cases t
  rw [whole]
  exact .lineRun first more _ alone oneLine marked ends

theorem delimited_trailing (t : Text) (behind : ¬EndsBlank before) :
    Delimited before ⟨.trailing, byteLength before, '/' :: '/' :: (restOfLine t).1⟩
      (restOfLine t).2 :=
  .trailing _ _ behind (newline_not_mem_restOfLine t) (head_restOfLine t)

theorem Delimited.start_eq (delimited : Delimited before s rest) : s.start = byteLength before := by
  cases delimited <;> rfl

theorem Delimited.opens (delimited : Delimited before s rest) : Opens s.raw := by
  cases delimited with
  | closed inner rest _ => exact .inr ⟨inner ++ ['*', '/'], rfl⟩
  | unclosed inner _ => exact .inr ⟨inner, rfl⟩
  | trailing line rest _ _ _ => exact .inl ⟨line, rfl⟩
  | lineRun first more rest _ _ _ _ => exact .inl ⟨joinLines (first :: more), rfl⟩

theorem Delimited.not_endsBlank (delimited : Delimited before s rest) :
    ∀ c ∈ rest.head?, c ≠ '\n' → ¬EndsBlank (before ++ s.raw) := by
  intro c head other
  cases delimited with
  | closed inner rest _ =>
    have last : before ++ (['/', '*'] ++ inner ++ ['*', '/']) =
        before ++ (['/', '*'] ++ inner ++ ['*']) ++ ['/'] := by simp
    rw [last, endsBlank_concat_iff]
    rintro (newline | ⟨-, blank⟩)
    · exact absurd newline (by decide)
    · exact absurd blank (by decide)
  | unclosed inner _ => cases head
  | trailing line rest _ _ ends => exact absurd (ends c head) other
  | lineRun first more rest _ _ _ ends =>
    rcases ends with rfl | ⟨next, rfl, -⟩
    · cases head
    · exact absurd (Option.some.inj head).symm other

/-! ### The scan -/

theorem tokens_of_opening {shape : Shape} {second : Char} {part : Text × Text} {offset : Nat}
    (whole : part.1 ++ part.2 = t) (width : offset = byteLength before)
    (delimited : Delimited before ⟨shape, byteLength before, '/' :: second :: part.1⟩ part.2)
    (goesOn : ∀ {behind : Text},
      offset + byteLength ('/' :: second :: part.1) = byteLength behind →
        (∀ c ∈ part.2.head?, c ≠ '\n' → (false = true ↔ EndsBlank behind)) →
          Tokens behind part.2
            (spansFrom false (offset + byteLength ('/' :: second :: part.1)) part.2)) :
    Tokens before ('/' :: second :: t) (⟨shape, offset, '/' :: second :: part.1⟩ ::
      spansFrom false (offset + byteLength ('/' :: second :: part.1)) part.2) := by
  subst whole width
  refine .comment delimited (goesOn (byteLength_append _ _).symm ?_)
  intro c head other
  exact iff_of_false Bool.false_ne_true (delimited.not_endsBlank c head other)

/-- The scan cuts the text behind `before`. Its flag matters only where a comment may begin, so
nothing is asked of it before a newline. -/
theorem tokens_spansFrom {alone : Bool} {offset : Nat} (width : offset = byteLength before)
    (flag : ∀ c ∈ t.head?, c ≠ '\n' → (alone = true ↔ EndsBlank before)) :
    Tokens before t (spansFrom alone offset t) := by
  fun_induction spansFrom alone offset t generalizing before
  case case1 => exact .nil before
  case case2 alone offset t raw ih =>
    exact tokens_of_opening (closeBlock_append t) width (delimited_block before t) ih
  case case3 offset t raw ih =>
    have alone := (flag '/' rfl (by decide)).mp rfl
    exact tokens_of_opening (lineRun_append t) width (delimited_lineRun t alone) ih
  case case4 alone offset t behind raw ih =>
    have behind := mt (flag '/' rfl (by decide)).mpr behind
    exact tokens_of_opening (restOfLine_append t) width (delimited_trailing t behind) ih
  case case5 alone offset c t block line ih =>
    have outside : ¬Opens (c :: t) := by
      rintro (⟨rest, eq⟩ | ⟨rest, eq⟩)
      · obtain ⟨rfl, rfl⟩ := cons.inj eq
        exact line rest rfl rfl
      · obtain ⟨rfl, rfl⟩ := cons.inj eq
        exact block rest rfl rfl
    have next : offset + c.utf8Size = byteLength (before ++ [c]) := by
      rw [width, byteLength_append]
      rfl
    refine .outside outside (ih next fun _ _ _ => ?_)
    rw [endsBlank_concat_iff, Bool.or_eq_true, Bool.and_eq_true, decide_eq_true_eq]
    by_cases newline : c = '\n'
    · exact iff_of_true (.inl newline) (.inl newline)
    · rw [flag c rfl newline]

theorem tokens_spans (content : Text) : Tokens [] content (spans content) :=
  tokens_spansFrom rfl fun _ _ _ => iff_of_true rfl fun _ member => by cases member

/-! ### What is found -/

namespace Tokens

theorem exists_delimited (tokens : Tokens before t found) (member : s ∈ found) :
    ∃ passed rest, t = passed ++ s.raw ++ rest ∧ Delimited (before ++ passed) s rest := by
  induction tokens with
  | nil before => cases member
  | @outside before c t found _ _ ih =>
    obtain ⟨passed, rest, rfl, delimited⟩ := ih member
    refine ⟨c :: passed, rest, rfl, ?_⟩
    rwa [append_assoc, singleton_append] at delimited
  | @comment before first t found delimited _ ih =>
    rcases mem_cons.mp member with rfl | later
    · exact ⟨[], t, rfl, by rwa [append_nil]⟩
    · obtain ⟨passed, rest, rfl, inside⟩ := ih later
      refine ⟨first.raw ++ passed, rest, by simp, ?_⟩
      rwa [append_assoc] at inside

/-- Wherever a comment could begin one is found that begins there or runs over that place. -/
theorem covered (tokens : Tokens before t found) {passed rest : Text} (eq : t = passed ++ rest)
    (opens : Opens rest) : ∃ s ∈ found, s.start ≤ byteLength (before ++ passed) ∧
      byteLength (before ++ passed) < s.stop := by
  induction tokens generalizing passed with
  | nil before =>
    obtain ⟨-, none⟩ := append_eq_nil_iff.mp eq.symm
    exact absurd none opens.ne_nil
  | @outside before c t found outside _ ih =>
    cases passed with
    | nil => exact absurd (eq ▸ opens) outside
    | cons d passed =>
      obtain ⟨rfl, rfl⟩ := cons.inj eq
      obtain ⟨s, member, place⟩ := ih rfl
      rw [append_assoc, singleton_append] at place
      exact ⟨s, member, place⟩
  | @comment before first t found delimited _ ih =>
    rcases Nat.lt_or_ge passed.length first.raw.length with inside | behind
    · have less := byteLength_lt_of_length_lt eq.symm inside
      refine ⟨first, mem_cons_self, ?_⟩
      rw [Span.stop, delimited.start_eq, byteLength_append]
      omega
    · obtain ⟨more, rfl⟩ := prefix_of_prefix_length_le (prefix_append first.raw t)
        (eq ▸ prefix_append passed rest) behind
      rw [append_assoc] at eq
      obtain ⟨s, member, place⟩ := ih (append_cancel_left eq)
      rw [append_assoc] at place
      exact ⟨s, mem_cons_of_mem first member, place⟩

theorem cuts (tokens : Tokens before t found) : Cuts (byteLength before) t found := by
  induction tokens with
  | nil before => exact .nil _
  | @outside before c t found _ _ ih =>
    rw [byteLength_append] at ih
    exact .outside c ih
  | @comment before first t found delimited rest ih =>
    rw [byteLength_append, ← delimited.start_eq] at ih
    rw [← delimited.start_eq]
    exact .comment first delimited.opens.ne_nil ih

end Tokens

theorem cuts_spans (content : Text) : Cuts 0 content (spans content) :=
  (tokens_spans content).cuts

/-- What comments must be to be all the comments of a text. -/
structure IsTokenization (content : Text) (found : List Span) : Prop where
  delimited : ∀ s ∈ found, ∃ before rest,
    content = before ++ s.raw ++ rest ∧ Delimited before s rest
  inside : ∀ s ∈ found, s.start < s.stop ∧ s.stop ≤ byteLength content
  apart : found.Pairwise fun a b => a.stop ≤ b.start
  /-- Every delimiter that could open a comment begins inside one. -/
  covered : ∀ before rest, content = before ++ rest → Opens rest →
    ∃ s ∈ found, s.start ≤ byteLength before ∧ byteLength before < s.stop

/-- The scan finds all the comments of a text, each from its opening delimiter to where its shape
demands that it ends. -/
theorem spans_tokenize (content : Text) : IsTokenization content (spans content) := by
  have tokens := tokens_spans content
  constructor
  case delimited =>
    intro s member
    exact tokens.exists_delimited member
  case inside =>
    intro s member
    obtain ⟨before, rest, eq, delimited⟩ := tokens.exists_delimited member
    have width := byteLength_pos delimited.opens.ne_nil
    rw [Span.stop, eq, byteLength_append, byteLength_append, delimited.start_eq]
    exact ⟨by omega, by simp [Nat.add_assoc]⟩
  case apart => exact tokens.cuts.pairwise.imp And.right
  case covered =>
    intro before rest eq opens
    exact tokens.covered eq opens

/-- The star that opens a block does not close it, and a line run starts on a line of its own. -/
example : spans "/*/ a *///b\n //c\n\t//d\ne".toList =
    [⟨.block, 0, "/*/ a */".toList⟩, ⟨.trailing, 8, "//b".toList⟩,
      ⟨.lineRun, 13, "//c\n\t//d".toList⟩] := by
  cbv

end SchemaTrace.Comment
