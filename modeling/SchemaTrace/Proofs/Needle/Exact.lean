import SchemaTrace.Proofs.Needle.Prefilter

/-! What a search finds, by byte offsets alone: exactly the leftmost occurrences with both edges
bounded that do not overlap, whichever prefilter it uses. -/

namespace SchemaTrace.Needle

open Text (byteLength byteLength_append byteLength_pos byteLength_lt_of_length_lt)

/-- A needle stands bounded at a byte offset, which lies between two characters. -/
def BoundedAt (haystack : Text) (offset : Nat) (needle : Text) : Prop :=
  ∃ before rest, haystack = before ++ needle ++ rest ∧ byteLength before = offset ∧
    StandsBetween before needle rest

structure FirstAt (needles : List Text) (haystack : Text) (offset : Nat) (needle : Text) :
    Prop where
  nonempty : needle ≠ []
  bounded : BoundedAt haystack offset needle
  first : ∃ earlier later, needles = earlier ++ needle :: later ∧
    ∀ other ∈ earlier, other ≠ [] → ¬BoundedAt haystack offset other

structure IsSearchResult (needles : List Text) (haystack : Text) (offsets : List Nat) : Prop where
  increasing : offsets.Pairwise (· < ·)
  sound : ∀ offset ∈ offsets, ∃ needle, FirstAt needles haystack offset needle
  /-- An occurrence ends before the next one begins. -/
  apart : offsets.Pairwise fun a b => ∀ needle, FirstAt needles haystack a needle →
    a + byteLength needle ≤ b
  /-- A needle that stands bounded is listed, or it begins strictly inside an occurrence that is. -/
  complete : ∀ needle ∈ needles, needle ≠ [] → ∀ offset, BoundedAt haystack offset needle →
    offset ∈ offsets ∨ ∃ start ∈ offsets, ∃ other, FirstAt needles haystack start other ∧
      start < offset ∧ offset < start + byteLength other

variable {needles : List Text} {haystack : Text} {offset : Nat}

theorem FirstAt.unique {needle other : Text} (h : FirstAt needles haystack offset needle)
    (h' : FirstAt needles haystack offset other) : needle = other := by
  obtain ⟨earlier, later, eq, refused⟩ := h.first
  obtain ⟨earlier', later', eq', refused'⟩ := h'.first
  rcases List.append_eq_append_iff.mp (eq.symm.trans eq') with
    ⟨between, rfl, split⟩ | ⟨between, rfl, split⟩
  · cases between with
    | nil => exact (List.cons.inj split).1
    | cons c between =>
      obtain ⟨rfl, -⟩ := List.cons.inj split
      have listed : needle ∈ earlier ++ needle :: between := by simp
      exact absurd h.bounded (refused' needle listed h.nonempty)
  · cases between with
    | nil => exact (List.cons.inj split).1.symm
    | cons c between =>
      obtain ⟨rfl, -⟩ := List.cons.inj split
      have listed : other ∈ earlier' ++ other :: between := by simp
      exact absurd h'.bounded (refused other listed h'.nonempty)

namespace Matcher

variable {matcher : Matcher} {m : Match}

theorem firstAt_of_mem_matchesIn (compiled : ofNeedles? needles = some matcher)
    (member : m ∈ matcher.matchesIn haystack) :
    FirstAt needles haystack (byteLength m.before) m.needle := by
  obtain ⟨listed, rest, eq, bounded⟩ := stands_of_mem_matchesIn member
  obtain ⟨earlier, later, split, refused⟩ := first_of_mem_matchesIn compiled member
  refine ⟨matcher.needle_ne_nil _ listed, ⟨m.before, rest, eq, rfl, bounded⟩,
    earlier, later, split, ?_⟩
  rintro other inside nonempty ⟨before, rest', eq', width, bounded'⟩
  have same : m.before ++ (m.needle ++ rest) = before ++ (other ++ rest') := by
    rw [← List.append_assoc, ← eq, ← List.append_assoc, eq']
  obtain ⟨rfl, -⟩ := Text.append_inj_of_byteLength same width.symm
  exact refused other inside nonempty rest' eq' bounded'

theorem isSearchResult_findAll (compiled : ofNeedles? needles = some matcher) (haystack : Text) :
    IsSearchResult needles haystack (matcher.findAll haystack) := by
  have apart := matcher.matchesIn_pairwise haystack
  rw [findAll_eq_map]
  constructor
  case increasing =>
    apply List.pairwise_map.mpr (apart.imp_of_mem _)
    intro a b memberA _ le
    have width := byteLength_pos (firstAt_of_mem_matchesIn compiled memberA).nonempty
    omega
  case sound =>
    intro offset member
    obtain ⟨m, found, rfl⟩ := List.mem_map.mp member
    exact ⟨m.needle, firstAt_of_mem_matchesIn compiled found⟩
  case apart =>
    apply List.pairwise_map.mpr (apart.imp_of_mem _)
    intro a b memberA _ le needle first
    rwa [first.unique (firstAt_of_mem_matchesIn compiled memberA)]
  case complete =>
    rintro needle listed nonempty offset ⟨before, rest, eq, rfl, bounded⟩
    have kept := (mem_needles_iff compiled).mpr ⟨listed, nonempty⟩
    obtain ⟨m, found, place⟩ := exists_mem_matchesIn kept eq bounded
    rcases place with rfl | ⟨behind, inside⟩
    · exact .inl (List.mem_map_of_mem found)
    · obtain ⟨-, rest', eq', -⟩ := stands_of_mem_matchesIn found
      have first := firstAt_of_mem_matchesIn compiled found
      have same : m.before ++ (m.needle ++ rest') = before ++ (needle ++ rest) := by
        rw [← List.append_assoc, ← eq', eq, List.append_assoc]
      refine .inr ⟨_, List.mem_map_of_mem found, m.needle, first, ?_, ?_⟩
      · exact byteLength_lt_of_length_lt same behind
      · rw [← List.append_assoc] at same
        rw [← List.length_append] at inside
        rw [← byteLength_append]
        exact byteLength_lt_of_length_lt same.symm inside

/-- Among needles that are not all empty a search finds the bounded occurrences from left to right,
at each place the first needle in the list, without overlaps and without a gap. A prefilter that
leads from one place where some needle begins to the next changes nothing. -/
theorem findAll_exact {needles : List Text} (searchable : ∃ needle ∈ needles, needle ≠ [])
    (haystack : Text) :
    ∃ matcher, ofNeedles? needles = some matcher ∧
      IsSearchResult needles haystack (matcher.findAll haystack) ∧
      ∀ p : Prefilter matcher.needles, matcher.search p haystack = matcher.findAll haystack := by
  obtain ⟨needle, listed, nonempty⟩ := searchable
  have kept : needles.filter (fun needle => !needle.isEmpty) ≠ [] :=
    List.ne_nil_of_mem (List.mem_filter.mpr ⟨listed, by simpa using nonempty⟩)
  have compiled : ∃ matcher, ofNeedles? needles = some matcher := by
    simp only [ofNeedles?, dif_pos kept, Option.some.injEq, exists_eq']
  obtain ⟨matcher, compiled⟩ := compiled
  exact ⟨matcher, compiled, isSearchResult_findAll compiled haystack,
    fun p => matcher.search_eq_findAll p haystack⟩

/-- The first needle stands at both places, but at the first of them it is not bounded. -/
theorem findAll_exact_longerWord :
    let needles := ["".toList, "Foo".toList, "Foo_bar".toList]
    let haystack := "é(Foo_bar Foo".toList
    (∃ needle ∈ needles, needle ≠ []) ∧
      ∃ matcher, ofNeedles? needles = some matcher ∧ matcher.findAll haystack = [3, 11] ∧
        matcher.search matcher.everyPlace haystack = [3, 11] ∧
        IsSearchResult needles haystack [3, 11] := by
  intro needles haystack
  have searchable : ∃ needle ∈ needles, needle ≠ [] := ⟨"Foo".toList, by decide, by decide⟩
  obtain ⟨matcher, compiled, result, same⟩ := findAll_exact searchable haystack
  have offsets : matcher.findAll haystack = [3, 11] := by
    rw [findAll, ofNeedles?_eq_some_iff.mp compiled]
    decide
  rw [offsets] at result same
  exact ⟨searchable, matcher, compiled, offsets, same matcher.everyPlace, result⟩

end Matcher
end SchemaTrace.Needle
