import SchemaTrace.Needle.Prefilter
import SchemaTrace.Proofs.Needle.Occurrence

/-! A search with a prefilter finds what a search of every place finds: at the places that are
passed over no needle begins, so none is taken there. -/

namespace SchemaTrace.Needle

open Text (byteLength byteLength_append byteLength_pos)

theorem splitAtByte?_append (a b : Text) : splitAtByte? (byteLength a) (a ++ b) = some (a, b) := by
  induction a with
  | nil => simp [byteLength, splitAtByte?]
  | cons c t ih =>
    have width := c.utf8Size_pos
    obtain ⟨n, eq⟩ : ∃ n, c.utf8Size + byteLength t = n + 1 :=
      ⟨c.utf8Size + byteLength t - 1, by omega⟩
    have fits : c.utf8Size ≤ n + 1 := by omega
    have left : n + 1 - c.utf8Size = byteLength t := by omega
    rw [List.cons_append, byteLength, eq, splitAtByte?, if_pos fits, left, ih]
    rfl

theorem widthAt_append (before : Text) (c : Char) (t : Text) :
    widthAt (before ++ c :: t) (byteLength before) = c.utf8Size := by
  rw [widthAt, Text.fromByte?_append]
  rfl

variable {needles : List Text}

theorem beginsAt_of_taken {before t needle : Text}
    (taken : taken? needles before.getLast? t = some needle) :
    BeginsAt needles (before ++ t) (byteLength before) := by
  obtain ⟨rest, eq, -⟩ := standsAt_iff.mp (List.find?_some taken)
  exact ⟨needle, List.mem_of_find?_eq_some taken, before, rest, by rw [eq, List.append_assoc], rfl⟩

theorem matchesFrom_skip (needles : List Text) (before skipped rest : Text) :
    matchesFrom needles skipped.length before (skipped ++ rest) =
      matchesFrom needles 0 (before ++ skipped) rest := by
  induction skipped generalizing before with
  | nil => rw [List.append_nil, List.nil_append, List.length_nil]
  | cons c skipped ih =>
    rw [List.length_cons, List.cons_append, matchesFrom, ih, List.append_assoc,
      List.singleton_append]

theorem matchesFrom_of_taken {before needle rest : Text} (nonempty : needle ≠ [])
    (taken : taken? needles before.getLast? (needle ++ rest) = some needle) :
    matchesFrom needles 0 before (needle ++ rest) =
      ⟨before, needle⟩ :: matchesFrom needles 0 (before ++ needle) rest := by
  obtain ⟨c, more, rfl⟩ := List.exists_cons_of_ne_nil nonempty
  rw [List.cons_append] at taken ⊢
  rw [matchesFrom, taken]
  simp only [List.length_cons, Nat.add_sub_cancel]
  rw [matchesFrom_skip, List.append_assoc, List.singleton_append]

theorem matchesFrom_of_not_beginsAt (before passed rest : Text)
    (none : ∀ place, byteLength before ≤ place → place < byteLength (before ++ passed) →
      ¬BeginsAt needles (before ++ passed ++ rest) place) :
    matchesFrom needles 0 before (passed ++ rest) =
      matchesFrom needles 0 (before ++ passed) rest := by
  induction passed generalizing before with
  | nil => rw [List.append_nil, List.nil_append]
  | cons c passed ih =>
    have whole : before ++ c :: passed = before ++ [c] ++ passed := by simp
    have width := byteLength_pos (List.cons_ne_nil c passed)
    have refused : taken? needles before.getLast? (c :: (passed ++ rest)) = .none := by
      cases taken : taken? needles before.getLast? (c :: (passed ++ rest)) with
      | none => rfl
      | some needle =>
        have begins := beginsAt_of_taken taken
        rw [← List.cons_append, ← List.append_assoc] at begins
        rw [byteLength_append] at none
        exact absurd begins (none _ (Nat.le_refl _) (by omega))
    rw [List.cons_append, matchesFrom, refused]
    simp only
    rw [whole] at none ⊢
    apply ih
    intro place behind
    rw [byteLength_append] at behind
    exact none place (by omega)

namespace Prefilter

theorem not_beginsAt (p : Prefilter needles) {haystack : Text} {offset : Nat}
    (none : p.next? haystack offset = none) {place : Nat} (behind : offset ≤ place) :
    ¬BeginsAt needles haystack place := by
  induction place using Nat.strongRecOn with
  | ind place ih =>
    intro begins
    have first : p.next? haystack offset = some place := (p.next?_eq_some_iff _ _ _).mpr
      ⟨behind, begins, fun earlier behind less => ih earlier less behind⟩
    rw [none] at first
    cases first

theorem matchesFrom_of_none (p : Prefilter needles) {before t : Text}
    (none : p.next? (before ++ t) (byteLength before) = none) :
    matchesFrom needles 0 before t = [] := by
  have first : ∀ place, byteLength before ≤ place → place < byteLength (before ++ t) →
      ¬BeginsAt needles (before ++ t ++ []) place := by
    intro place behind _
    rw [List.append_nil]
    exact p.not_beginsAt none behind
  have passed := matchesFrom_of_not_beginsAt before t [] first
  rw [List.append_nil] at passed
  rw [passed, matchesFrom]

theorem matchesFrom_of_some (p : Prefilter needles) (nonempty : ∀ needle ∈ needles, needle ≠ [])
    {before t : Text} {start : Nat}
    (found : p.next? (before ++ t) (byteLength before) = some start) :
    ∃ passed c rest, t = passed ++ c :: rest ∧ start = byteLength (before ++ passed) ∧
      matchesFrom needles 0 before t = matchesFrom needles 0 (before ++ passed) (c :: rest) := by
  obtain ⟨behind, ⟨needle, listed, front, rest, eq, rfl⟩, first⟩ :=
    (p.next?_eq_some_iff _ _ _).mp found
  rw [List.append_assoc] at eq
  obtain ⟨passed, rfl⟩ := Text.exists_append_of_byteLength_le eq behind
  obtain ⟨c, more, rfl⟩ := List.exists_cons_of_ne_nil (nonempty needle listed)
  rw [List.append_assoc] at eq
  obtain rfl := List.append_cancel_left eq
  rw [← List.append_assoc before passed] at first
  exact ⟨passed, c, more ++ rest, rfl, rfl, matchesFrom_of_not_beginsAt before passed _ first⟩

end Prefilter

namespace Matcher

theorem takenAt?_append (m : Matcher) (before t : Text) :
    m.takenAt? (before ++ t) (byteLength before) = taken? m.needles before.getLast? t := by
  rw [takenAt?, splitAtByte?_append]
  rfl

/-- From the end of a beginning of the text on, the search finds the occurrences that are taken
behind it. -/
theorem searchFrom_eq_map (m : Matcher) (p : Prefilter m.needles) (before t : Text) :
    m.searchFrom p (before ++ t) (byteLength before) =
      (matchesFrom m.needles 0 before t).map fun found => byteLength found.before := by
  -- Each step leaves less of the text, so the induction is on what is left of it.
  induction left : t.length using Nat.strongRecOn generalizing before t with
  | ind left ih =>
    subst left
    rw [searchFrom]
    split
    · split
      · next none => rw [p.matchesFrom_of_none none, List.map_nil]
      · next start found =>
        obtain ⟨passed, c, rest, rfl, rfl, reached⟩ := p.matchesFrom_of_some m.needle_ne_nil found
        rw [reached, ← List.append_assoc]
        have here := m.takenAt?_append (before ++ passed) (c :: rest)
        split
        · next needle taken =>
          rw [here] at taken
          obtain ⟨behind, split, -⟩ := standsAt_iff.mp (List.find?_some taken)
          have nonempty := m.needle_ne_nil needle (List.mem_of_find?_eq_some taken)
          have width := List.length_pos_iff.mpr nonempty
          rw [split] at taken ih ⊢
          have later := ih behind.length (by simp; omega) (before ++ passed ++ needle) behind rfl
          rw [matchesFrom_of_taken nonempty taken, List.map_cons, ← later,
            byteLength_append _ needle, List.append_assoc _ needle]
        · next taken =>
          rw [here] at taken
          have later := ih rest.length (by simp; omega) (before ++ passed ++ [c]) rest rfl
          rw [matchesFrom, taken, widthAt_append]
          rw [byteLength_append, List.append_assoc _ [c], List.singleton_append] at later
          exact later
    · next outside =>
      cases t with
      | nil => rw [matchesFrom, List.map_nil]
      | cons c t =>
        have width := byteLength_pos (List.cons_ne_nil c t)
        rw [byteLength_append] at outside
        omega

/-- However the prefilter finds the next place, the search finds what a search of every place
does. -/
theorem search_eq_findAll (m : Matcher) (p : Prefilter m.needles) (haystack : Text) :
    m.search p haystack = m.findAll haystack := by
  rw [findAll_eq_map]
  exact searchFrom_eq_map m p [] haystack

end Matcher

/-! ### A prefilter that tries every place -/

def firstFrom? (needles : List Text) (offset : Nat) : (position : Nat) → Text → Option Nat
  | _, [] => none
  | position, c :: t =>
    if offset ≤ position ∧ ∃ needle ∈ needles, Text.startsWith needle (c :: t) then some position
    else firstFrom? needles offset (position + c.utf8Size) t

theorem beginsAt_byteLength_iff {before t : Text} :
    BeginsAt needles (before ++ t) (byteLength before) ↔
      ∃ needle ∈ needles, Text.startsWith needle t = true := by
  constructor
  · rintro ⟨needle, listed, front, rest, eq, width⟩
    rw [List.append_assoc] at eq
    obtain ⟨rfl, rfl⟩ := Text.append_inj_of_byteLength eq width.symm
    exact ⟨needle, listed, Option.isSome_iff_exists.mpr ⟨rest, Text.after?_eq_some_iff.mpr rfl⟩⟩
  · rintro ⟨needle, listed, starts⟩
    obtain ⟨rest, eq⟩ := Option.isSome_iff_exists.mp starts
    exact ⟨needle, listed, before, rest,
      by rw [Text.after?_eq_some_iff.mp eq, List.append_assoc], rfl⟩

theorem next_le_of_beginsAt {before t : Text} {c : Char} {place : Nat}
    (begins : BeginsAt needles (before ++ c :: t) place) (behind : byteLength before < place) :
    byteLength before + c.utf8Size ≤ place := by
  obtain ⟨needle, -, front, rest, eq, rfl⟩ := begins
  rw [List.append_assoc] at eq
  obtain ⟨between, nonempty, rfl⟩ := Text.exists_append_of_byteLength_lt eq behind
  obtain ⟨d, more, rfl⟩ := List.exists_cons_of_ne_nil nonempty
  rw [List.append_assoc] at eq
  obtain ⟨rfl, -⟩ := List.cons.inj (List.append_cancel_left eq)
  rw [byteLength_append, byteLength]
  omega

theorem firstFrom?_eq_some_iff (nonempty : ∀ needle ∈ needles, needle ≠ []) (offset : Nat)
    (before t : Text) (start : Nat) :
    firstFrom? needles offset (byteLength before) t = some start ↔
      offset ≤ start ∧ byteLength before ≤ start ∧ BeginsAt needles (before ++ t) start ∧
        ∀ place, offset ≤ place → byteLength before ≤ place → place < start →
          ¬BeginsAt needles (before ++ t) place := by
  induction t generalizing before with
  | nil =>
    simp only [firstFrom?, reduceCtorEq, false_iff]
    rintro ⟨-, behind, ⟨needle, listed, front, rest, eq, rfl⟩, -⟩
    have width := byteLength_pos (nonempty needle listed)
    have whole := congrArg byteLength eq
    simp only [byteLength_append, byteLength] at whole
    omega
  | cons c t ih =>
    have next : byteLength before + c.utf8Size = byteLength (before ++ [c]) := by
      simp [byteLength_append, byteLength]
    have split : before ++ [c] ++ t = before ++ c :: t := by simp
    have width := c.utf8Size_pos
    rw [firstFrom?]
    split
    · next here =>
      have begins : BeginsAt needles (before ++ c :: t) (byteLength before) :=
        beginsAt_byteLength_iff.mpr here.2
      rw [Option.some.injEq]
      constructor
      · rintro rfl
        exact ⟨here.1, Nat.le_refl _, begins, fun place _ behind less => by omega⟩
      · rintro ⟨-, behind, -, first⟩
        rcases Nat.eq_or_lt_of_le behind with eq | less
        · exact eq
        · exact absurd begins (first _ here.1 (Nat.le_refl _) less)
    · next elsewhere =>
      -- No place lies inside a character, so all others are behind this one.
      have further {place : Nat} (le : offset ≤ place) (behind : byteLength before ≤ place)
          (begins : BeginsAt needles (before ++ c :: t) place) :
          byteLength (before ++ [c]) ≤ place := by
        rcases Nat.eq_or_lt_of_le behind with rfl | less
        · exact absurd ⟨le, beginsAt_byteLength_iff.mp begins⟩ elsewhere
        · exact next ▸ next_le_of_beginsAt begins less
      rw [next, ih, split]
      constructor
      · rintro ⟨le, behind, begins, first⟩
        refine ⟨le, by omega, begins, ?_⟩
        intro place le' behind' less here
        exact first place le' (further le' behind' here) less here
      · rintro ⟨le, behind, begins, first⟩
        exact ⟨le, further le behind begins, begins,
          fun place le' behind' => first place le' (by omega)⟩

def Matcher.everyPlace (m : Matcher) : Prefilter m.needles where
  next? haystack offset := firstFrom? m.needles offset 0 haystack
  next?_eq_some_iff haystack offset start := by
    have first := firstFrom?_eq_some_iff m.needle_ne_nil offset [] haystack start
    simpa [byteLength] using first

end SchemaTrace.Needle
