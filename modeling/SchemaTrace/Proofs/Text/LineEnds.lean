import SchemaTrace.Proofs.Text.Pieces
import SchemaTrace.Proofs.Text.Position

/-! A text with a carriage return before each newline. What holds no line end is found in it at the
same places, and these keep their lines and columns. -/

namespace SchemaTrace.Text

open List

def withReturns (t : Text) : Text := t.flatMap fun c => if c = '\n' then ['\r', '\n'] else [c]

def Ended (t t' : Text) : Prop := t' = t ∨ t' = t ++ ['\r']

/-- A text without line ends. -/
structure Unbroken (t : Text) : Prop where
  newline : '\n' ∉ t
  carriageReturn : '\r' ∉ t

theorem Unbroken.of_subset {t part : Text} (unbroken : Unbroken t) (inside : part ⊆ t) :
    Unbroken part where
  newline member := unbroken.newline (inside member)
  carriageReturn member := unbroken.carriageReturn (inside member)

theorem withReturns_append (a b : Text) : withReturns (a ++ b) = withReturns a ++ withReturns b :=
  flatMap_append

theorem withReturns_newline (t : Text) : withReturns ('\n' :: t) = '\r' :: '\n' :: withReturns t :=
  rfl

theorem withReturns_cons {c : Char} (other : c ≠ '\n') (t : Text) :
    withReturns (c :: t) = c :: withReturns t := by
  simp [withReturns, other]

theorem withReturns_of_newline_not_mem {t : Text} (oneLine : '\n' ∉ t) : withReturns t = t := by
  induction t with
  | nil => rfl
  | cons c t ih =>
    obtain ⟨first, rest⟩ := not_or.mp (mt mem_cons.mpr oneLine)
    rw [withReturns_cons (Ne.symm first), ih rest]

theorem head?_withReturns_eq_iff {t : Text} {c : Char} (notNewline : c ≠ '\n')
    (notReturn : c ≠ '\r') : (withReturns t).head? = some c ↔ t.head? = some c := by
  cases t with
  | nil => rfl
  | cons d t =>
    by_cases newline : d = '\n'
    · simp [newline, withReturns_newline, Ne.symm notNewline, Ne.symm notReturn]
    · rw [withReturns_cons newline, head?_cons, head?_cons]

/-! ### Beginnings, ends and pieces -/

theorem after?_concat {lead t : Text} {c : Char} (fresh : c ∉ lead) :
    after? lead (t ++ [c]) = (after? lead t).map (· ++ [c]) := by
  induction lead generalizing t with
  | nil => rfl
  | cons l lead ih =>
    obtain ⟨first, rest⟩ := not_or.mp (mt mem_cons.mpr fresh)
    cases t with
    | nil => simp [after?, Ne.symm first]
    | cons d t =>
      by_cases same : l = d
      · simp [after?, same, ih rest]
      · simp [after?, same]

theorem after?_withReturns {lead : Text} (unbroken : Unbroken lead) (t : Text) :
    after? lead (withReturns t) = (after? lead t).map withReturns := by
  induction lead generalizing t with
  | nil => rfl
  | cons l lead ih =>
    have notNewline : l ≠ '\n' := fun eq => unbroken.newline (eq ▸ mem_cons_self)
    have notReturn : l ≠ '\r' := fun eq => unbroken.carriageReturn (eq ▸ mem_cons_self)
    cases t with
    | nil => rfl
    | cons c t =>
      by_cases newline : c = '\n'
      · simp [newline, withReturns_newline, after?, notNewline, notReturn]
      · by_cases same : l = c
        · simp [withReturns_cons newline, after?, same,
            ih (unbroken.of_subset (subset_cons_self l lead))]
        · simp [withReturns_cons newline, after?, same]

theorem startsWith_concat {lead : Text} {c : Char} (fresh : c ∉ lead) (t : Text) :
    startsWith lead (t ++ [c]) = startsWith lead t := by
  rw [startsWith, after?_concat fresh, Option.isSome_map, startsWith]

theorem startsWith_withReturns {lead : Text} (unbroken : Unbroken lead) (t : Text) :
    startsWith lead (withReturns t) = startsWith lead t := by
  rw [startsWith, after?_withReturns unbroken, Option.isSome_map, startsWith]

theorem prefix_withReturns_iff {lead t : Text} (unbroken : Unbroken lead) :
    lead <+: withReturns t ↔ lead <+: t := by
  rw [← startsWith_eq_true_iff, startsWith_withReturns unbroken, startsWith_eq_true_iff]

theorem infix_concat_iff_of_not_mem {needle t : Text} {c : Char} (fresh : c ∉ needle) :
    needle <:+: t ++ [c] ↔ needle <:+: t := by
  constructor
  · intro found
    rcases infix_or_infix_of_infix_append_cons found fresh with inside | none
    · exact inside
    · rw [infix_nil.mp none]
      exact nil_infix
  · exact fun found => found.trans (prefix_append t [c]).isInfix

theorem infix_cons_iff_of_not_mem {needle t : Text} {c : Char} (fresh : c ∉ needle) :
    needle <:+: c :: t ↔ needle <:+: t := by
  constructor
  · intro found
    rcases infix_or_infix_of_infix_append_cons (a := []) found fresh with none | inside
    · rw [infix_nil.mp none]
      exact nil_infix
    · exact inside
  · exact fun found => found.trans (suffix_cons c t).isInfix

theorem infix_withReturns_iff {needle t : Text} (unbroken : Unbroken needle) :
    needle <:+: withReturns t ↔ needle <:+: t := by
  induction t with
  | nil => rfl
  | cons c t ih =>
    by_cases newline : c = '\n'
    · rw [newline, withReturns_newline, infix_cons_iff_of_not_mem unbroken.carriageReturn,
        infix_cons_iff_of_not_mem unbroken.newline, infix_cons_iff_of_not_mem unbroken.newline, ih]
    · have starts := prefix_withReturns_iff unbroken (t := c :: t)
      rw [withReturns_cons newline] at starts ⊢
      rw [infix_cons_iff, starts, ih, infix_cons_iff]

/-- What a text with carriage returns ends in, if it holds no line end, the text itself ends in. -/
theorem exists_of_withReturns_eq_append {tail t front : Text} (unbroken : Unbroken tail)
    (eq : withReturns t = front ++ tail) : ∃ rest, t = rest ++ tail ∧ front = withReturns rest := by
  induction tail using List.reverseRecOn generalizing t with
  | nil => exact ⟨t, (append_nil t).symm, by rw [eq, append_nil]⟩
  | append_singleton tail d ih =>
    have last : d ∈ tail ++ [d] := mem_append_right tail mem_cons_self
    rw [← append_assoc] at eq
    cases t using List.reverseRecOn with
    | nil => simp [withReturns] at eq
    | append_singleton t c =>
      rw [withReturns_append] at eq
      by_cases newline : c = '\n'
      · have ends : withReturns [c] = ['\r'] ++ ['\n'] := by rw [newline]; rfl
        rw [ends, ← append_assoc] at eq
        obtain ⟨-, same⟩ := append_inj' eq rfl
        obtain rfl := singleton_inj.mp same
        exact absurd last unbroken.newline
      · rw [withReturns_cons newline] at eq
        obtain ⟨before, same⟩ := append_inj' eq rfl
        obtain rfl := (cons.inj same).1
        obtain ⟨rest, rfl, front⟩ := ih (unbroken.of_subset (subset_append_left tail [c])) before
        exact ⟨rest, append_assoc rest tail [c], front⟩

theorem before?_withReturns {tail : Text} (unbroken : Unbroken tail) (t : Text) :
    before? tail (withReturns t) = (before? tail t).map withReturns := by
  cases found : before? tail t with
  | some rest =>
    rw [before?_eq_some_iff.mp found, withReturns_append,
      withReturns_of_newline_not_mem unbroken.newline]
    exact before?_eq_some_iff.mpr rfl
  | none =>
    rw [Option.map_none, Option.eq_none_iff_forall_ne_some]
    intro front ends
    obtain ⟨rest, eq, -⟩ := exists_of_withReturns_eq_append unbroken (before?_eq_some_iff.mp ends)
    rw [before?_eq_some_iff.mpr eq] at found
    cases found

/-! ### One more carriage return -/

theorem Ended.cons (c : Char) {t t' : Text} (ended : Ended t t') : Ended (c :: t) (c :: t') := by
  rcases ended with rfl | rfl
  · exact .inl rfl
  · exact .inr rfl

theorem Ended.trimStart {line line' : Text} (ended : Ended line line') :
    Ended (trimStart line) (trimStart line') := by
  rcases ended with rfl | rfl
  · exact .inl rfl
  · rw [Text.trimStart, Text.trimStart, dropWhile_append]
    split
    · next none => exact .inl (isEmpty_iff.mp none).symm
    · exact .inr rfl

theorem Ended.trimEnd_eq {line line' : Text} (ended : Ended line line') :
    trimEnd line' = trimEnd line := by
  rcases ended with rfl | rfl
  · rfl
  · rw [trimEnd, dropTail, reverse_append, reverse_singleton, singleton_append,
      dropWhile_cons_of_pos (by decide)]
    rfl

/-! ### Lines -/

theorem dropWhile_withReturns {p : Char → Bool} (newline : p '\n' = false)
    (carriageReturn : p '\r' = false) (t : Text) :
    (withReturns t).dropWhile p = withReturns (t.dropWhile p) := by
  induction t with
  | nil => rfl
  | cons c t ih =>
    by_cases ends : c = '\n'
    · rw [ends, withReturns_newline, dropWhile_cons_of_neg (by simp [carriageReturn]),
        dropWhile_cons_of_neg (by simp [newline]), withReturns_newline]
    · rw [withReturns_cons ends]
      cases holds : p c with
      | true => rw [dropWhile_cons_of_pos holds, dropWhile_cons_of_pos holds, ih]
      | false =>
        have stops : ¬p c = true := by simp [holds]
        rw [dropWhile_cons_of_neg stops, dropWhile_cons_of_neg stops, withReturns_cons ends]

/-- Before each newline the text with carriage returns has one more, so a line ends in one or is the
last. -/
theorem forall₂_splitLines_append {tail : Text} (ends : Ended [] tail) (t : Text) :
    Forall₂ Ended (splitLines t) (splitLines (withReturns t ++ tail)) := by
  induction t with
  | nil =>
    rcases ends with rfl | rfl
    · exact .cons (.inl rfl) .nil
    · exact .cons (.inr rfl) .nil
  | cons c t ih =>
    by_cases newline : c = '\n'
    · rw [newline, withReturns_newline]
      exact .cons (.inr rfl) ih
    · rw [withReturns_cons newline, cons_append]
      simp only [splitLines, splitAll, newline, if_false] at ih ⊢
      generalize splitAll '\n' t = pieces, splitAll '\n' (withReturns t ++ tail) = pieces' at ih ⊢
      cases ih with
      | nil => exact .cons (.inl rfl) .nil
      | cons first rest => exact .cons (first.cons c) rest

theorem forall₂_splitLines {t t' : Text} (ended : Ended (withReturns t) t') :
    Forall₂ Ended (splitLines t) (splitLines t') := by
  rcases ended with rfl | rfl
  · have lines := forall₂_splitLines_append (.inl rfl) t
    rwa [append_nil] at lines
  · exact forall₂_splitLines_append (.inr rfl) t

end SchemaTrace.Text

namespace SchemaTrace.Position

theorem after_concat (before : Text) (c : Char) : after (before ++ [c]) =
    if c = '\n' then ⟨(after before).line + 1, 1⟩
    else ⟨(after before).line, (after before).column + 1⟩ := by
  by_cases newline : c = '\n'
  · simp [after, newline]
  · simp [after, newline]

theorem after_withReturns (before : Text) : after (Text.withReturns before) = after before := by
  induction before using List.reverseRecOn with
  | nil => rfl
  | append_singleton before c ih =>
    rw [Text.withReturns_append]
    by_cases newline : c = '\n'
    · have ends : Text.withReturns [c] = ['\r'] ++ ['\n'] := by rw [newline]; rfl
      rw [ends, newline, ← List.append_assoc, after_concat, after_concat, after_concat, ih]
      rfl
    · rw [Text.withReturns_cons newline]
      exact (after_concat _ c).trans (by rw [ih, after_concat])

end SchemaTrace.Position
