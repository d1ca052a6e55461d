import Mathlib.Data.List.Find
import SchemaTrace.Proofs.Comment.LineEnds
import SchemaTrace.Proofs.Needle.Occurrence

/-! Line ends do not matter for evidence. With a carriage return before every newline a text has the
same annotations, and needles are found in it at the same lines and columns. -/

namespace SchemaTrace.Needle

open Text List

/-! ### At one place -/

theorem isBounded_withReturns (before : Option Char) (needle rest : Text) :
    isBounded before needle (withReturns rest).head? = isBounded before needle rest.head? := by
  cases rest with
  | nil => rfl
  | cons c rest =>
    by_cases newline : c = '\n'
    · have word : isWord (some '\r') = isWord (some '\n') := by decide
      have separator : isSeparator (some '\r') = isSeparator (some '\n') := by decide
      rw [newline, withReturns_newline, head?_cons, head?_cons, isBounded, isBounded, word,
        separator]
    · rw [withReturns_cons newline, head?_cons, head?_cons]

theorem standsAt_withReturns {needle : Text} (unbroken : Unbroken needle) (before : Option Char)
    (haystack : Text) :
    standsAt before (withReturns haystack) needle = standsAt before haystack needle := by
  rw [standsAt, after?_withReturns unbroken, standsAt]
  cases after? needle haystack with
  | none => rfl
  | some rest => exact isBounded_withReturns before needle rest

/-- Needles that are searched for in texts with line ends, but hold none. -/
def Within (needles : List Text) : Prop := ∀ needle ∈ needles, Unbroken needle ∧ needle ≠ []

variable {needles : List Text}

theorem taken?_withReturns (within : Within needles) (before : Option Char) (haystack : Text) :
    taken? needles before (withReturns haystack) = taken? needles before haystack := by
  apply find?_congr
  exact fun needle member => standsAt_withReturns (within needle member).1 before haystack

theorem taken?_eq_none {c : Char} (fresh : ∀ needle ∈ needles, c ∉ needle)
    (nonempty : ∀ needle ∈ needles, needle ≠ []) (before : Option Char) (t : Text) :
    taken? needles before (c :: t) = none := by
  apply find?_eq_none.mpr
  intro needle member stands
  obtain ⟨d, rest, rfl⟩ := exists_cons_of_ne_nil (nonempty needle member)
  have other : d ≠ c := fun eq => fresh _ member (eq ▸ mem_cons_self)
  simp [standsAt, after?, other] at stands

/-! ### Along the text -/

theorem getLast?_withReturns (before : Text) : (withReturns before).getLast? = before.getLast? := by
  cases before using List.reverseRecOn with
  | nil => rfl
  | append_singleton before c =>
    rw [withReturns_append, getLast?_concat]
    by_cases newline : c = '\n'
    · rw [newline]
      exact getLast?_append_of_ne_nil _ (cons_ne_nil _ _)
    · rw [withReturns_cons newline]
      exact getLast?_concat

/-- The search takes the same needles, each behind the same text with carriage returns. What it
skips is part of a needle and holds no newline. -/
theorem matchesFrom_withReturns (within : Within needles) (skip : Nat) (before t : Text)
    (skipped : '\n' ∉ t.take skip) :
    matchesFrom needles skip (withReturns before) (withReturns t) =
      (matchesFrom needles skip before t).map fun m => ⟨withReturns m.before, m.needle⟩ := by
  induction t generalizing skip before with
  | nil => cases skip <;> rfl
  | cons c t ih =>
    have nonempty : ∀ needle ∈ needles, needle ≠ [] := fun needle member => (within needle member).2
    by_cases newline : c = '\n'
    · subst newline
      cases skip with
      | succ skip => exact absurd mem_cons_self skipped
      | zero =>
        have atReturn := taken?_eq_none
          (fun needle member => (within needle member).1.carriageReturn) nonempty
        have atNewline := taken?_eq_none
          (fun needle member => (within needle member).1.newline) nonempty
        have later := ih 0 (before ++ ['\n']) (by simp)
        rw [withReturns_append] at later
        simp only [withReturns_newline, matchesFrom, atReturn, atNewline, append_assoc]
        exact later
    · have later (skip : Nat) (skipped : '\n' ∉ t.take skip) := ih skip (before ++ [c]) skipped
      have ends : withReturns [c] = [c] := withReturns_cons newline []
      simp only [withReturns_append, ends] at later
      cases skip with
      | succ skip =>
        rw [withReturns_cons newline, matchesFrom, matchesFrom]
        exact later skip fun member => skipped (mem_cons_of_mem c member)
      | zero =>
        have same := taken?_withReturns within before.getLast? (c :: t)
        rw [withReturns_cons newline] at same ⊢
        rw [matchesFrom, matchesFrom, getLast?_withReturns, same]
        cases taken : taken? needles before.getLast? (c :: t) with
        | none => exact later 0 (by simp)
        | some needle =>
          have listed := mem_of_find?_eq_some taken
          obtain ⟨rest, split, -⟩ := standsAt_iff.mp (find?_some taken)
          obtain ⟨first, tail, rfl⟩ := exists_cons_of_ne_nil (nonempty needle listed)
          rw [cons_append] at split
          obtain ⟨rfl, rfl⟩ := cons.inj split
          have oneLine : '\n' ∉ (tail ++ rest).take tail.length := by
            rw [take_left]
            exact fun member => (within _ listed).1.newline (mem_cons_of_mem c member)
          exact congrArg (⟨withReturns before, c :: tail⟩ :: ·) (later tail.length oneLine)

namespace Matcher

theorem matchesIn_withReturns (matcher : Matcher)
    (unbroken : ∀ needle ∈ matcher.needles, Unbroken needle) (t : Text) :
    matcher.matchesIn (withReturns t) =
      (matcher.matchesIn t).map fun m => ⟨withReturns m.before, m.needle⟩ :=
  matchesFrom_withReturns (fun needle member =>
    ⟨unbroken needle member, matcher.needle_ne_nil needle member⟩) 0 [] t (by simp)

theorem locate_findAll_withReturns (matcher : Matcher)
    (unbroken : ∀ needle ∈ matcher.needles, Unbroken needle) (t : Text) :
    (matcher.findAll (withReturns t)).map (LineIndex.ofText (withReturns t)).locate =
      (matcher.findAll t).map (LineIndex.ofText t).locate := by
  rw [findAll_eq_map, findAll_eq_map, matchesIn_withReturns matcher unbroken, map_map, map_map,
    map_map]
  apply map_congr_left
  intro m member
  obtain ⟨-, rest, eq, -⟩ := stands_of_mem_matchesIn member
  rw [append_assoc] at eq
  simp only [Function.comp_apply]
  rw [eq, LineIndex.locate_of_append, withReturns_append, LineIndex.locate_of_append,
    Position.after_withReturns]

end Matcher
end SchemaTrace.Needle

namespace SchemaTrace

open Text

/-- Unless a line comment ends in what would close a block, line ends change no annotation, and they
change no place of a needle. -/
theorem lineEnds_immaterial {t : Text}
    (unclosed : ∀ s ∈ Comment.spans t, s.shape ≠ .block → ¬['*', '/'] <:+ s.raw) :
    (∀ tag, Unbroken tag → Comment.parse tag (withReturns t) = Comment.parse tag t) ∧
      ∀ needles : List Text, (∃ needle ∈ needles, needle ≠ []) →
        (∀ needle ∈ needles, Unbroken needle) →
          ∃ matcher, Needle.Matcher.ofNeedles? needles = some matcher ∧
            (matcher.findAll (withReturns t)).map (LineIndex.ofText (withReturns t)).locate =
              (matcher.findAll t).map (LineIndex.ofText t).locate := by
  refine ⟨fun tag unbroken => Comment.parse_withReturns unclosed unbroken, ?_⟩
  intro needles some unbroken
  obtain ⟨needle, listed, nonempty⟩ := some
  have kept : needles.filter (fun needle => !needle.isEmpty) ≠ [] := by
    apply List.ne_nil_of_mem (a := needle)
    exact List.mem_filter.mpr ⟨listed, by simpa using nonempty⟩
  have compiled : Needle.Matcher.ofNeedles? needles =
      some ⟨needles.filter fun needle => !needle.isEmpty, kept, fun needle member => by
        simpa using (List.mem_filter.mp member).2⟩ := Needle.Matcher.ofNeedles?_eq_some_iff.mpr rfl
  refine ⟨_, compiled, Needle.Matcher.locate_findAll_withReturns _ ?_ t⟩
  exact fun needle member => unbroken needle (List.mem_filter.mp member).1

def annotatedCall : Text := '/' :: '/' :: " @cdp A.b\nsend(A.b)\n".toList

theorem spans_annotatedCall :
    Comment.spans annotatedCall = [⟨.lineRun, 0, '/' :: '/' :: " @cdp A.b".toList⟩] := by
  have quiet : Comment.Silent "\nsend(A.b)\n".toList := ⟨by decide, by decide⟩
  have run : Comment.lineRun " @cdp A.b\nsend(A.b)\n".toList =
      (" @cdp A.b".toList, "\nsend(A.b)\n".toList) := by
    rw [Comment.lineRun_eq]
    rfl
  rw [annotatedCall, Comment.spans, Comment.spansFrom.eq_3, if_pos rfl, run]
  exact congrArg _ (Comment.spansFrom_of_silent _ _ quiet)

theorem lineEnds_immaterial_annotatedCall :
    Comment.parse "@cdp".toList ("// @cdp A.b\x0d\nsend(A.b)\x0d\n".toList) =
        Comment.parse "@cdp".toList annotatedCall ∧
      ∃ matcher, Needle.Matcher.ofNeedles? ["A.b".toList] = some matcher ∧
        (matcher.findAll "// @cdp A.b\x0d\nsend(A.b)\x0d\n".toList).map
          (LineIndex.ofText "// @cdp A.b\x0d\nsend(A.b)\x0d\n".toList).locate =
            [⟨1, 9⟩, ⟨2, 6⟩] := by
  have unclosed : ∀ s ∈ Comment.spans annotatedCall,
      s.shape ≠ .block → ¬['*', '/'] <:+ s.raw := by
    rw [spans_annotatedCall]
    decide
  have immaterial := lineEnds_immaterial unclosed
  constructor
  · exact immaterial.1 _ ⟨by decide, by decide⟩
  · obtain ⟨matcher, compiled, located⟩ := immaterial.2 ["A.b".toList] (by decide)
      (by simpa using ⟨by decide, by decide⟩)
    refine ⟨matcher, compiled, located.trans ?_⟩
    obtain rfl := Option.some.inj compiled
    decide +kernel

end SchemaTrace
