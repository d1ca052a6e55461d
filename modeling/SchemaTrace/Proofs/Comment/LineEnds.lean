import SchemaTrace.Proofs.Comment.Exact
import SchemaTrace.Proofs.Comment.Scan
import SchemaTrace.Proofs.Text.LineEnds

/-! Comments of a text with carriage returns. They stand at the same places, and cleaning takes the
carriage returns off, so they say the same as without. -/

namespace SchemaTrace.Comment

open Text List

/-! ### Cleaning -/

theorem ended_dropLineMarker {line line' : Text} (ended : Ended line line') :
    Ended (dropLineMarker line) (dropLineMarker line') := by
  have start := ended.trimStart
  unfold dropLineMarker
  rcases start with same | more
  · rw [same]
    cases after? ['/', '/'] (trimStart line) with
    | none => exact ended
    | some rest => exact .inl rfl
  · rw [more, after?_concat (by decide)]
    cases after? ['/', '/'] (trimStart line) with
    | none => exact ended
    | some rest =>
      simp only [Option.map_some]
      rw [after?_concat (by decide), after?_concat (by decide)]
      cases after? ['/'] rest with
      | some left => exact .inr rfl
      | none =>
        cases after? ['!'] rest with
        | some left => exact .inr rfl
        | none => exact .inr rfl

theorem ended_dropStarMarker {line line' : Text} (ended : Ended line line') :
    Ended (dropStarMarker line) (dropStarMarker line') := by
  have start := ended.trimStart
  unfold dropStarMarker
  rcases start with same | more
  · rw [same]
    cases after? ['*'] (trimStart line) with
    | none => exact ended
    | some rest =>
      simp only
      split
      · exact ended
      · exact .inl rfl
  · rw [more, after?_concat (by decide)]
    cases after? ['*'] (trimStart line) with
    | none => exact ended
    | some rest =>
      simp only [Option.map_some]
      rw [startsWith_concat (by decide), after?_concat (by decide)]
      split
      · exact ended
      · rw [Option.getD_map (· ++ ['\r'])]
        exact .inr rfl

theorem cleanLine_of_ended (opens : Bool) {line line' : Text} (ended : Ended line line') :
    cleanLine opens line' = cleanLine opens line := by
  have bare := ended_dropLineMarker ended
  have padded : Ended (if opens then trimStart (dropLineMarker line) else dropLineMarker line)
      (if opens then trimStart (dropLineMarker line') else dropLineMarker line') := by
    cases opens with
    | true => exact bare.trimStart
    | false => exact bare
  exact (ended_dropStarMarker padded).trimEnd_eq

theorem cleanLines_of_ended (opens : Bool) {lines lines' : List Text}
    (ended : Forall₂ Ended lines lines') : cleanLines opens lines' = cleanLines opens lines := by
  cases ended with
  | nil => rfl
  | cons first rest =>
    rw [cleanLines, cleanLines, cleanLine_of_ended opens first]
    congr 1
    induction rest with
    | nil => rfl
    | cons second rest ih => rw [map_cons, map_cons, cleanLine_of_ended false second, ih]

theorem afterOpening?_withReturns (raw : Text) :
    afterOpening? (withReturns raw) = (afterOpening? raw).map withReturns := by
  rw [afterOpening?, after?_withReturns ⟨by decide, by decide⟩,
    after?_withReturns ⟨by decide, by decide⟩, afterOpening?]
  cases after? ['/', '*', '*'] raw with
  | some rest => rfl
  | none => rfl

theorem afterOpening?_concat (raw : Text) :
    afterOpening? (raw ++ ['\r']) = (afterOpening? raw).map (· ++ ['\r']) := by
  rw [afterOpening?, after?_concat (by decide), after?_concat (by decide), afterOpening?]
  cases after? ['/', '*', '*'] raw with
  | some rest => rfl
  | none => rfl

theorem body_withReturns (raw : Text) : body (withReturns raw) = withReturns (body raw) := by
  rw [body, afterOpening?_withReturns, Option.getD_map]
  rw [before?_withReturns ⟨by decide, by decide⟩, Option.getD_map]
  rfl

theorem body_concat {raw : Text} (unclosed : ¬['*', '/'] <:+ raw) :
    body (raw ++ ['\r']) = body raw ++ ['\r'] := by
  have behind : (afterOpening? raw).getD raw <:+ raw := suffix_of_getD_orElse
  have opened : before? ['*', '/'] ((afterOpening? raw).getD raw) = none := by
    rw [Option.eq_none_iff_forall_ne_some]
    intro front ends
    exact unclosed (IsSuffix.trans ⟨front, (before?_eq_some_iff.mp ends).symm⟩ behind)
  have ended : before? ['*', '/'] ((afterOpening? raw).getD raw ++ ['\r']) = none := by
    rw [before?, reverse_append]
    rfl
  rw [body, afterOpening?_concat, Option.getD_map (· ++ ['\r']), body]
  simp only [opened, ended, Option.getD_none]

theorem clean_of_ended {raw raw' : Text} (ended : Ended (withReturns raw) raw')
    (unclosed : raw' = withReturns raw ∨ ¬['*', '/'] <:+ raw) : clean raw' = clean raw := by
  have opens : (afterOpening? raw').isSome = (afterOpening? raw).isSome := by
    rcases ended with rfl | rfl
    · rw [afterOpening?_withReturns, Option.isSome_map]
    · rw [afterOpening?_concat, afterOpening?_withReturns, Option.isSome_map, Option.isSome_map]
  have bodies : Ended (withReturns (body raw)) (body raw') := by
    rcases unclosed with rfl | open_
    · exact .inl (body_withReturns raw)
    · rcases ended with rfl | rfl
      · exact .inl (body_withReturns raw)
      · have still : ¬['*', '/'] <:+ withReturns raw := by
          rintro ⟨front, eq⟩
          obtain ⟨rest, rfl, -⟩ :=
            exists_of_withReturns_eq_append ⟨by decide, by decide⟩ eq.symm
          exact open_ (suffix_append rest _)
        rw [body_concat still, body_withReturns]
        exact .inr rfl
  have lines : proseLines raw' = proseLines raw := by
    rw [proseLines, opens, cleanLines_of_ended _ (forall₂_splitLines bodies), proseLines]
  rw [clean, lines, clean]

/-! ### The scan -/

theorem closeBlock_withReturns (t : Text) :
    closeBlock (withReturns t) = (withReturns (closeBlock t).1, withReturns (closeBlock t).2) := by
  induction t with
  | nil => rfl
  | cons c t ih =>
    by_cases newline : c = '\n'
    · subst newline
      rw [withReturns_newline]
      simp [closeBlock, ih, withReturns_newline]
    · have next := head?_withReturns_eq_iff (t := t) (c := '/') (by decide) (by decide)
      rw [withReturns_cons newline]
      by_cases closes : c = '*' ∧ t.head? = some '/'
      · obtain ⟨rfl, slash⟩ := closes
        obtain ⟨rest, rfl⟩ := head?_eq_some_iff.mp slash
        rw [withReturns_cons (by decide)]
        simp [closeBlock, withReturns]
      · simp only [closeBlock, Bool.and_eq_true, decide_eq_true_eq, next, closes, if_false, ih,
          withReturns_cons newline]

/-- How a comment of whole lines is cut off: a carriage return before the newline behind it goes
with the comment. -/
def CutAlike (part part' : Text × Text) : Prop :=
  ∃ tail, Ended [] tail ∧ part'.1 = withReturns part.1 ++ tail ∧
    tail ++ part'.2 = withReturns part.2

theorem exists_restOfLine (t : Text) : ∃ line rest, t = line ++ rest ∧ '\n' ∉ line ∧
    (rest = [] ∨ ∃ next, rest = '\n' :: next) := by
  refine ⟨t.takeWhile (· ≠ '\n'), t.dropWhile (· ≠ '\n'), takeWhile_append_dropWhile.symm, ?_, ?_⟩
  · intro member
    simpa using mem_takeWhile_imp member
  · cases left : t.dropWhile (· ≠ '\n') with
    | nil => exact .inl rfl
    | cons c next =>
      have stops := head?_dropWhile_not (· ≠ '\n') t
      rw [left] at stops
      have newline : c = '\n' := by simpa using stops
      exact .inr ⟨next, by rw [newline]⟩

theorem restOfLine_withReturns_newline {line : Text} (oneLine : '\n' ∉ line) (next : Text) :
    restOfLine (withReturns (line ++ '\n' :: next)) =
      (line ++ ['\r'], '\n' :: withReturns next) := by
  have cut : withReturns (line ++ '\n' :: next) = (line ++ ['\r']) ++ '\n' :: withReturns next := by
    rw [withReturns_append, withReturns_of_newline_not_mem oneLine, withReturns_newline,
      append_assoc]
    rfl
  rw [cut]
  exact restOfLine_append_of_newline (by simp [oneLine]) (by simp)

theorem restOfLine_withReturns (t : Text) :
    CutAlike (restOfLine t) (restOfLine (withReturns t)) := by
  obtain ⟨line, rest, rfl, oneLine, ends⟩ := exists_restOfLine t
  rcases ends with rfl | ⟨next, rfl⟩
  · rw [append_nil, withReturns_of_newline_not_mem oneLine, restOfLine_of_newline_not_mem oneLine]
    exact ⟨[], .inl rfl, by rw [withReturns_of_newline_not_mem oneLine, append_nil], rfl⟩
  · rw [restOfLine_withReturns_newline oneLine, restOfLine_append_of_newline oneLine (by simp)]
    exact ⟨['\r'], .inr rfl, by rw [withReturns_of_newline_not_mem oneLine], rfl⟩

theorem lineRun_withReturns (t : Text) : CutAlike (lineRun t) (lineRun (withReturns t)) := by
  induction size : t.length using Nat.strong_induction_on generalizing t with
  | h n ih =>
    obtain ⟨line, rest, rfl, oneLine, ends⟩ := exists_restOfLine t
    rcases ends with rfl | ⟨next, rfl⟩
    · rw [append_nil, withReturns_of_newline_not_mem oneLine, lineRun_eq,
        restOfLine_of_newline_not_mem oneLine]
      exact ⟨[], .inl rfl, by rw [withReturns_of_newline_not_mem oneLine, append_nil], rfl⟩
    · have shorter : next.length < n := by
        rw [← size, length_append, length_cons]
        omega
      have goesOn : startsWith ['/', '/'] ((withReturns next).dropWhile isBlank) =
          startsWith ['/', '/'] (next.dropWhile isBlank) := by
        rw [dropWhile_withReturns (by decide) (by decide),
          startsWith_withReturns ⟨by decide, by decide⟩]
      rw [lineRun_eq, restOfLine_append_of_newline oneLine (by simp), lineRun_eq (withReturns _),
        restOfLine_withReturns_newline oneLine]
      simp only [goesOn]
      split
      · obtain ⟨tail, ended, raw, rest⟩ := ih next.length shorter next rfl
        refine ⟨tail, ended, ?_, rest⟩
        rw [raw, withReturns_append, withReturns_of_newline_not_mem oneLine, withReturns_newline]
        simp only [append_assoc, cons_append, nil_append]
      · exact ⟨['\r'], .inr rfl, by rw [withReturns_of_newline_not_mem oneLine], rfl⟩

/-- A comment of a text, and the one at the same place of the text with carriage returns. -/
structure SameComment (t : Text) (s s' : Span) : Prop where
  shape : s'.shape = s.shape
  place : ∃ before rest, t = before ++ rest ∧ s.start = byteLength before ∧
    s'.start = byteLength (withReturns before)
  raw : Ended (withReturns s.raw) s'.raw
  block : s.shape = .block → s'.raw = withReturns s.raw

theorem spansFrom_ended {tail : Text} (ended : Ended [] tail) (offset : Nat) (t : Text) :
    spansFrom false offset (tail ++ t) = spansFrom false (offset + byteLength tail) t := by
  rcases ended with rfl | rfl
  · rfl
  · exact spansFrom_outside (by simp [cons_prefix_cons]) (by simp [cons_prefix_cons]) false offset

/-- Of a text and the text with carriage returns the scan cuts off comments that are alike, and
behind them it goes on alike. -/
theorem forall₂_cut {seen t : Text} {shape : Shape} {second : Char} (opens : second ≠ '\n')
    {part part' : Text × Text} (whole : part.1 ++ part.2 = t) (cut : CutAlike part part')
    (block : shape = .block → part'.1 = withReturns part.1)
    (later : Forall₂ (SameComment (seen ++ '/' :: second :: part.1 ++ part.2))
      (spansFrom false (byteLength seen + byteLength ('/' :: second :: part.1)) part.2)
      (spansFrom false (byteLength (withReturns (seen ++ '/' :: second :: part.1)))
        (withReturns part.2))) :
    Forall₂ (SameComment (seen ++ '/' :: second :: t))
      (⟨shape, byteLength seen, '/' :: second :: part.1⟩ :: spansFrom false
        (byteLength seen + byteLength ('/' :: second :: part.1)) part.2)
      (⟨shape, byteLength (withReturns seen), '/' :: second :: part'.1⟩ :: spansFrom false
        (byteLength (withReturns seen) + byteLength ('/' :: second :: part'.1)) part'.2) := by
  have marker (body : Text) :
      withReturns ('/' :: second :: body) = '/' :: second :: withReturns body := by
    rw [withReturns_cons (by decide), withReturns_cons opens]
  have text : seen ++ '/' :: second :: part.1 ++ part.2 = seen ++ '/' :: second :: t := by
    rw [← whole]
    simp only [append_assoc, cons_append]
  obtain ⟨tail, ended, raw, rest⟩ := cut
  have stop : byteLength (withReturns (seen ++ '/' :: second :: part.1)) + byteLength tail =
      byteLength (withReturns seen) + byteLength ('/' :: second :: part'.1) := by
    rw [withReturns_append, marker, byteLength_append, Nat.add_assoc, ← byteLength_append, raw]
    rfl
  rw [text, ← rest, spansFrom_ended ended, stop] at later
  refine .cons ⟨rfl, ⟨seen, _, rfl, rfl, rfl⟩, ?_, ?_⟩ later
  · rw [marker, raw]
    rcases ended with rfl | rfl
    · exact .inl (by rw [append_nil])
    · exact .inr rfl
  · intro isBlock
    rw [block isBlock, marker]

theorem forall₂_spansFrom (alone : Bool) (seen t : Text) :
    Forall₂ (SameComment (seen ++ t)) (spansFrom alone (byteLength seen) t)
      (spansFrom alone (byteLength (withReturns seen)) (withReturns t)) := by
  generalize start : byteLength seen = offset
  fun_induction spansFrom alone offset t generalizing seen with
  | case1 alone offset =>
    have none : withReturns [] = [] := rfl
    rw [none, spansFrom]
    exact .nil
  | case2 alone offset t raw ih =>
    subst start
    have closed := closeBlock_withReturns t
    rw [withReturns_cons (by decide), withReturns_cons (by decide), spansFrom.eq_2]
    refine forall₂_cut (by decide) (closeBlock_append t) ?_ ?_ ?_
    · exact ⟨[], .inl rfl, by rw [closed, append_nil], by rw [closed, nil_append]⟩
    · exact fun _ => by rw [closed]
    · exact ih _ (byteLength_append seen raw)
  | case3 offset t raw ih =>
    subst start
    rw [withReturns_cons (by decide), withReturns_cons (by decide), spansFrom.eq_3, if_pos rfl]
    refine forall₂_cut (by decide) (lineRun_append t) (lineRun_withReturns t) (by simp) ?_
    exact ih _ (byteLength_append seen raw)
  | case4 alone offset t other raw ih =>
    subst start
    rw [withReturns_cons (by decide), withReturns_cons (by decide), spansFrom.eq_3, if_neg other]
    refine forall₂_cut (by decide) (restOfLine_append t) (restOfLine_withReturns t) (by simp) ?_
    exact ih _ (byteLength_append seen raw)
  | case5 alone offset c t block line ih =>
    subst start
    have later := ih (seen ++ [c]) (byteLength_append seen [c])
    rw [append_assoc, singleton_append, withReturns_append, byteLength_append] at later
    -- No comment begins at the carriage return that is put before a newline.
    by_cases newline : c = '\n'
    · subst newline
      rw [withReturns_newline, spansFrom_outside (by simp [cons_prefix_cons])
        (by simp [cons_prefix_cons]), spansFrom_outside (by simp [cons_prefix_cons])
        (by simp [cons_prefix_cons])]
      exact later
    · have outside {second : Char} (unbroken : Unbroken ['/', second])
          (none : ∀ rest, c = '/' → t = second :: rest → False) :
          ¬['/', second] <+: c :: withReturns t := by
        rw [← withReturns_cons newline, prefix_withReturns_iff unbroken]
        rintro ⟨rest, eq⟩
        obtain ⟨rfl, rfl⟩ := cons.inj eq
        exact none rest rfl rfl
      rw [withReturns_cons newline, spansFrom_outside (outside ⟨by decide, by decide⟩ block)
        (outside ⟨by decide, by decide⟩ line)]
      rw [withReturns_cons newline] at later
      exact later

/-! ### What the comments say -/

theorem flatMap_eq_of_forall₂ {α β γ : Type} {R : α → β → Prop} {yields : α → List γ}
    {yields' : β → List γ} {l : List α} {l' : List β} (related : Forall₂ R l l')
    (same : ∀ a ∈ l, ∀ b, R a b → yields' b = yields a) :
    l'.flatMap yields' = l.flatMap yields := by
  induction related with
  | nil => rfl
  | cons first rest ih =>
    rw [flatMap_cons, flatMap_cons, same _ mem_cons_self _ first,
      ih fun a member => same a (mem_cons_of_mem _ member)]

theorem annotationsOf_of_sameComment {t tag : Text} (unbroken : Unbroken tag) {s s' : Span}
    (same : SameComment t s s') (unclosed : s.shape ≠ .block → ¬['*', '/'] <:+ s.raw) :
    annotationsOf tag (.ofText (withReturns t)) s' = annotationsOf tag (.ofText t) s := by
  obtain ⟨before, rest, rfl, start, start'⟩ := same.place
  have place : (LineIndex.ofText (withReturns (before ++ rest))).locate s'.start =
      (LineIndex.ofText (before ++ rest)).locate s.start := by
    rw [start, start', withReturns_append, LineIndex.locate_of_append, LineIndex.locate_of_append,
      Position.after_withReturns]
  have held : contains tag s'.raw = contains tag s.raw := by
    rw [Bool.eq_iff_iff, contains_eq_true_iff, contains_eq_true_iff]
    rcases same.raw with eq | eq
    · rw [eq, infix_withReturns_iff unbroken]
    · rw [eq, infix_concat_iff_of_not_mem unbroken.carriageReturn, infix_withReturns_iff unbroken]
  have prose : clean s'.raw = clean s.raw := by
    apply clean_of_ended same.raw
    by_cases shape : s.shape = .block
    · exact .inl (same.block shape)
    · exact .inr (unclosed shape)
  rw [annotationsOf, annotationsOf, held, prose, place]

theorem parse_withReturns {t : Text}
    (unclosed : ∀ s ∈ spans t, s.shape ≠ .block → ¬['*', '/'] <:+ s.raw) {tag : Text}
    (unbroken : Unbroken tag) : parse tag (withReturns t) = parse tag t := by
  have held : contains tag (withReturns t) = contains tag t := by
    rw [Bool.eq_iff_iff, contains_eq_true_iff, contains_eq_true_iff, infix_withReturns_iff unbroken]
  have all : (spans (withReturns t)).flatMap (annotationsOf tag (.ofText (withReturns t))) =
      (spans t).flatMap (annotationsOf tag (.ofText t)) :=
    flatMap_eq_of_forall₂ (forall₂_spansFrom true [] t) fun s member s' same =>
      annotationsOf_of_sameComment unbroken same (unclosed s member)
  rw [parse, annotations, held, all, parse, annotations]

end SchemaTrace.Comment
