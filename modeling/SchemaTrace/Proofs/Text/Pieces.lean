import Mathlib.Data.List.Infix
import Mathlib.Data.List.TakeWhile
import SchemaTrace.Proofs.Text.Bytes

/-! Pieces of a text. What trimming, cutting and splitting leave is a piece of the text, and a piece
without a newline that is found in joined lines stands within one of them. -/

namespace SchemaTrace.Text

open List

theorem startsWith_eq_true_iff {lead t : Text} : startsWith lead t = true ↔ lead <+: t := by
  rw [startsWith, Option.isSome_iff_exists]
  simp only [after?_eq_some_iff]
  constructor
  · intro given
    rcases given with ⟨rest, eq⟩
    exact ⟨rest, eq.symm⟩
  · intro given
    rcases given with ⟨rest, eq⟩
    exact ⟨rest, eq.symm⟩

theorem after?_eq_none_iff {lead t : Text} : after? lead t = none ↔ ¬lead <+: t := by
  rw [← startsWith_eq_true_iff, startsWith, Option.not_isSome_iff_eq_none]

theorem contains_eq_true_iff {needle t : Text} : contains needle t = true ↔ needle <:+: t := by
  induction t with
  | nil => rw [contains, List.isEmpty_iff, infix_nil]
  | cons c t ih => rw [contains, Bool.or_eq_true, startsWith_eq_true_iff, ih, infix_cons_iff]

theorem suffix_of_after? {lead t rest : Text} (found : after? lead t = some rest) : rest <:+ t :=
  ⟨lead, (after?_eq_some_iff.mp found).symm⟩

theorem before?_eq_some_iff {tail t rest : Text} :
    before? tail t = some rest ↔ t = rest ++ tail := by
  rw [before?, Option.map_eq_some_iff]
  constructor
  · intro given
    rcases given with ⟨reversed, cut, rfl⟩
    have back := congrArg reverse (after?_eq_some_iff.mp cut)
    rwa [reverse_reverse, reverse_append, reverse_reverse] at back
  · rintro rfl
    exact ⟨rest.reverse, after?_eq_some_iff.mpr reverse_append, reverse_reverse rest⟩

theorem prefix_of_before? {tail t rest : Text} (found : before? tail t = some rest) :
    rest <+: t := ⟨tail, (before?_eq_some_iff.mp found).symm⟩

theorem suffix_of_fromByte? {width : Nat} {t rest : Text} (found : fromByte? width t = some rest) :
    rest <:+ t := by
  fun_induction fromByte? width t with
  | case1 t =>
    obtain rfl := Option.some.inj found
    exact suffix_refl t
  | case2 n => cases found
  | case3 n c t fits ih => exact (ih found).trans (suffix_cons c t)
  | case4 n c t wide => cases found

theorem suffix_trimStart (t : Text) : trimStart t <:+ t := dropWhile_suffix _

theorem prefix_dropTail (p : Char → Bool) (t : Text) : dropTail p t <+: t := by
  rw [← reverse_suffix, dropTail, reverse_reverse]
  exact dropWhile_suffix p

theorem takeWhile_append_of_head {α : Type} {p : α → Bool} {a b : List α}
    (all : ∀ c ∈ a, p c = true) (stops : ∀ c ∈ b.head?, p c = false) :
    (a ++ b).takeWhile p = a ∧ (a ++ b).dropWhile p = b := by
  rw [takeWhile_append_of_pos all, dropWhile_append_of_pos all]
  cases b with
  | nil => simp
  | cons c b =>
    have stop := stops c rfl
    simp [stop]

/-! ### Before and after a separator -/

theorem splitFirst?_eq_some_iff {sep : Char} {t a b : Text} :
    splitFirst? sep t = some (a, b) ↔ t = a ++ sep :: b ∧ sep ∉ a := by
  induction t generalizing a with
  | nil => simp [splitFirst?]
  | cons c t ih =>
    simp only [splitFirst?]
    by_cases eq : c = sep
    · subst eq
      cases a with
      | nil => simp
      | cons d a =>
        simp only [if_pos, Option.some.injEq, Prod.mk.injEq, cons_append, cons.injEq]
        constructor
        · intro given
          rcases given with ⟨h, -⟩
          cases h
        · intro given
          rcases given with ⟨⟨rfl, -⟩, absent⟩
          exact absurd mem_cons_self absent
    · rw [if_neg eq]
      simp only [Option.map_eq_some_iff, Prod.exists, Prod.mk.injEq]
      constructor
      · intro given
        rcases given with ⟨a', b', found, rfl, rfl⟩
        obtain ⟨rfl, absent⟩ := ih.mp found
        refine ⟨rfl, ?_⟩
        intro member
        rcases mem_cons.mp member with h | h
        · exact eq h.symm
        · exact absent h
      · intro given
        rcases given with ⟨h, absent⟩
        cases a with
        | nil => exact absurd (cons.inj h).1 eq
        | cons d a =>
          obtain ⟨rfl, rest⟩ := cons.inj h
          have absent' : sep ∉ a := fun member => absent (mem_cons_of_mem _ member)
          exact ⟨a, b, ih.mpr ⟨rest, absent'⟩, rfl, rfl⟩

theorem splitFirst?_eq_none_iff {sep : Char} {t : Text} : splitFirst? sep t = none ↔ sep ∉ t := by
  rw [Option.eq_none_iff_forall_ne_some]
  constructor
  · intro none member
    obtain ⟨a, b, split, absent⟩ := eq_append_cons_of_mem member
    exact none (a, b) (splitFirst?_eq_some_iff.mpr ⟨split, absent⟩)
  · rintro absent ⟨a, b⟩ found
    rw [(splitFirst?_eq_some_iff.mp found).1] at absent
    exact absent (mem_append_right a mem_cons_self)

theorem splitLast?_eq_none_iff {sep : Char} {t : Text} : splitLast? sep t = none ↔ sep ∉ t := by
  rw [splitLast?, Option.map_eq_none_iff, splitFirst?_eq_none_iff, mem_reverse]

theorem splitLast?_eq_some_iff {sep : Char} {t a b : Text} :
    splitLast? sep t = some (a, b) ↔ t = a ++ sep :: b ∧ sep ∉ b := by
  rw [splitLast?, Option.map_eq_some_iff]
  constructor
  · rintro ⟨⟨behind, before⟩, found, eq⟩
    obtain ⟨rfl, rfl⟩ := Prod.mk.inj eq
    obtain ⟨split, absent⟩ := splitFirst?_eq_some_iff.mp found
    refine ⟨?_, by rwa [mem_reverse]⟩
    rw [← reverse_inj, split]
    simp
  · rintro ⟨rfl, absent⟩
    refine ⟨(b.reverse, a.reverse), splitFirst?_eq_some_iff.mpr ⟨by simp, by rwa [mem_reverse]⟩, ?_⟩
    simp only [reverse_reverse]

/-! ### Lines -/

theorem splitAll_eq_splitOn (sep : Char) (t : Text) : splitAll sep t = t.splitOn sep := by
  induction t with
  | nil => rfl
  | cons c t ih =>
    have step : (c :: t).splitOn sep = if c == sep then [] :: t.splitOn sep
        else (t.splitOn sep).modifyHead (c :: ·) := splitOnP_cons_eq_if_modifyHead c t
    rw [splitAll, ih, step]
    by_cases same : c = sep
    · simp [same]
    · cases pieces : t.splitOn sep with
      | nil => exact absurd pieces (splitOnP_ne_nil _ t)
      | cons piece pieces => simp [same]

theorem joinLines_cons_cons (first second : Text) (more : List Text) :
    joinLines (first :: second :: more) = first ++ '\n' :: joinLines (second :: more) := by
  rw [joinLines, intercalate_cons_cons, append_assoc]
  rfl

theorem prefix_joinLines (first : Text) (more : List Text) :
    first <+: joinLines (first :: more) := by
  cases more with
  | nil => exact ⟨[], by rw [joinLines, intercalate_singleton, append_nil]⟩
  | cons second more => exact ⟨'\n' :: joinLines (second :: more), (joinLines_cons_cons ..).symm⟩

theorem joinLines_append_cons (lead first : Text) (more : List Text) :
    joinLines ((lead ++ first) :: more) = lead ++ joinLines (first :: more) := by
  cases more with
  | nil => rw [joinLines, joinLines, intercalate_singleton, intercalate_singleton]
  | cons second more => rw [joinLines_cons_cons, joinLines_cons_cons, append_assoc]

theorem joinLines_append_last (lines : List Text) (last tail : Text) :
    joinLines (lines ++ [last ++ tail]) = joinLines (lines ++ [last]) ++ tail := by
  induction lines with
  | nil =>
    rw [nil_append, nil_append, joinLines, joinLines, intercalate_singleton, intercalate_singleton]
  | cons first lines ih =>
    cases lines with
    | nil => simp [joinLines, intercalate_cons_cons]
    | cons second more =>
      rw [cons_append, cons_append, joinLines_cons_cons, cons_append, cons_append,
        joinLines_cons_cons, append_assoc, cons_append]
      rw [cons_append, cons_append] at ih
      rw [ih]

theorem splitLines_joinLines {lines : List Text} (oneLine : ∀ line ∈ lines, '\n' ∉ line)
    (nonempty : lines ≠ []) : splitLines (joinLines lines) = lines := by
  rw [splitLines, splitAll_eq_splitOn]
  exact splitOn_intercalate '\n' oneLine nonempty

theorem joinLines_splitLines (t : Text) : joinLines (splitLines t) = t := by
  rw [splitLines, splitAll_eq_splitOn]
  exact intercalate_splitOn '\n'

theorem splitLines_ne_nil (t : Text) : splitLines t ≠ [] := by
  rw [splitLines, splitAll_eq_splitOn]
  exact splitOn_ne_nil '\n' t

theorem not_mem_of_mem_splitAll {sep : Char} {t piece : Text} (member : piece ∈ splitAll sep t) :
    sep ∉ piece := by
  induction t generalizing piece with
  | nil =>
    rw [mem_singleton.mp member]
    exact not_mem_nil
  | cons c t ih =>
    by_cases same : c = sep
    · rw [splitAll, if_pos same] at member
      rcases mem_cons.mp member with rfl | later
      · exact not_mem_nil
      · exact ih later
    · rw [splitAll, if_neg same] at member
      have fresh : sep ∉ [c] := fun inside => same (mem_singleton.mp inside).symm
      cases pieces : splitAll sep t with
      | nil =>
        rw [pieces] at member
        rwa [mem_singleton.mp member]
      | cons first rest =>
        rw [pieces] at member ih
        rcases mem_cons.mp member with rfl | later
        · rw [← singleton_append, mem_append, not_or]
          exact ⟨fresh, ih mem_cons_self⟩
        · exact ih (mem_cons_of_mem first later)

theorem infix_joinLines_of_mem {line : Text} {lines : List Text} (member : line ∈ lines) :
    line <:+: joinLines lines := by
  induction lines with
  | nil => cases member
  | cons first rest ih =>
    cases rest with
    | nil =>
      rw [joinLines, intercalate_singleton, mem_singleton.mp member]
    | cons second rest =>
      rw [joinLines, intercalate_cons_cons, append_assoc]
      rcases mem_cons.mp member with rfl | later
      · exact (prefix_append line _).isInfix
      · have inside := (ih later).trans (suffix_append ['\n'] _).isInfix
        exact inside.trans (suffix_append first _).isInfix

theorem infix_of_mem_splitLines {line t : Text} (member : line ∈ splitLines t) : line <:+: t := by
  have inside := infix_joinLines_of_mem member
  rwa [joinLines_splitLines] at inside

/-- A piece without the separator stands on one side of it. -/
theorem infix_or_infix_of_infix_append_cons {needle a b : Text} {sep : Char}
    (found : needle <:+: a ++ sep :: b) (without : sep ∉ needle) :
    needle <:+: a ∨ needle <:+: b := by
  have beyond {tail : Text} (starts : tail <+: sep :: b) (inside : tail ⊆ needle) : tail = [] := by
    rcases prefix_cons_iff.mp starts with none | ⟨rest, rfl, -⟩
    · exact none
    · exact absurd (inside mem_cons_self) without
  rcases infix_append_iff.mp found with before | behind | ⟨front, tail, rfl, ends, starts⟩
  · exact .inl before
  · rcases infix_cons_iff.mp behind with starts | inside
    · rw [beyond starts (Subset.refl _)]
      exact .inl nil_infix
    · exact .inr inside
  · rw [beyond starts (subset_append_right front tail), append_nil]
    exact .inl ends.isInfix

theorem exists_infix_of_infix_joinLines {needle : Text} (nonempty : needle ≠ [])
    (without : '\n' ∉ needle) {lines : List Text} (found : needle <:+: joinLines lines) :
    ∃ line ∈ lines, needle <:+: line := by
  induction lines with
  | nil => exact absurd (infix_nil.mp found) nonempty
  | cons first rest ih =>
    cases rest with
    | nil =>
      rw [joinLines, intercalate_singleton] at found
      exact ⟨first, mem_cons_self, found⟩
    | cons second rest =>
      rw [joinLines, intercalate_cons_cons, append_assoc] at found
      rcases infix_or_infix_of_infix_append_cons found without with here | later
      · exact ⟨first, mem_cons_self, here⟩
      · obtain ⟨line, member, inside⟩ := ih later
        exact ⟨line, mem_cons_of_mem first member, inside⟩

end SchemaTrace.Text
