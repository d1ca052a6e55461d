import SchemaTrace.Needle.Search
import SchemaTrace.Proofs.Text.Bytes

/-! The occurrences that a search takes: each is the first needle that stands bounded at its
place, they do not overlap, and a bounded needle that is not taken begins inside one that is. -/

namespace SchemaTrace.Needle

open Text (after? after?_eq_some_iff byteLength byteLength_append)

def StandsBetween (before needle rest : Text) : Prop :=
  isBounded before.getLast? needle rest.head? = true

theorem standsAt_iff {before : Text} {haystack needle : Text} :
    standsAt before.getLast? haystack needle = true ↔
      ∃ rest, haystack = needle ++ rest ∧ StandsBetween before needle rest := by
  unfold standsAt
  cases found : after? needle haystack with
  | none =>
    simp only [Bool.false_eq_true, false_iff]
    intro given
    rcases given with ⟨rest, eq, -⟩
    rw [after?_eq_some_iff.mpr eq] at found
    cases found
  | some rest =>
    have eq := after?_eq_some_iff.mp found
    constructor
    · intro bounded
      exact ⟨rest, eq, bounded⟩
    · intro given
      rcases given with ⟨other, eq', bounded⟩
      have same := List.append_cancel_left (eq.symm.trans eq')
      rw [same]
      exact bounded

/-- An occurrence that is taken, with all of the text before it. -/
structure Match where
  before : Text
  needle : Text
  deriving DecidableEq, Repr

/-- The occurrences taken in what follows `before`, of which the first `skip` characters belong to
an occurrence already taken. -/
def matchesFrom (needles : List Text) : (skip : Nat) → (before : Text) → Text → List Match
  | _, _, [] => []
  | skip + 1, before, c :: t => matchesFrom needles skip (before ++ [c]) t
  | 0, before, c :: t =>
    match taken? needles before.getLast? (c :: t) with
    | none => matchesFrom needles 0 (before ++ [c]) t
    | some needle =>
      ⟨before, needle⟩ :: matchesFrom needles (needle.length - 1) (before ++ [c]) t

theorem occurrencesFrom_eq_map (needles : List Text) (skip : Nat) (before t : Text) :
    occurrencesFrom needles skip before.getLast? (byteLength before) t =
      (matchesFrom needles skip before t).map fun m => byteLength m.before := by
  induction t generalizing skip before with
  | nil => simp [occurrencesFrom, matchesFrom]
  | cons c t ih =>
    have step (skip : Nat) : occurrencesFrom needles skip (some c)
        (byteLength before + c.utf8Size) t =
        (matchesFrom needles skip (before ++ [c]) t).map fun m => byteLength m.before := by
      have last : (before ++ [c]).getLast? = some c := List.getLast?_concat
      have width : byteLength before + c.utf8Size = byteLength (before ++ [c]) := by
        simp [byteLength_append, byteLength]
      rw [← last, width]
      exact ih skip (before ++ [c])
    cases skip with
    | succ skip => rw [occurrencesFrom, matchesFrom, step]
    | zero =>
      rw [occurrencesFrom, matchesFrom]
      cases taken? needles before.getLast? (c :: t) with
      | none => exact step 0
      | some needle => simp only [step, List.map_cons]

variable {needles : List Text} {skip : Nat} {before t : Text} {m : Match}

theorem taken_of_mem_matchesFrom (member : m ∈ matchesFrom needles skip before t) :
    before.length + skip ≤ m.before.length ∧ ∃ haystack, before ++ t = m.before ++ haystack ∧
      taken? needles m.before.getLast? haystack = some m.needle := by
  induction t generalizing skip before with
  | nil => simp [matchesFrom] at member
  | cons c t ih =>
    have later {skip : Nat} (inside : m ∈ matchesFrom needles skip (before ++ [c]) t) :
        before.length + 1 + skip ≤ m.before.length ∧
          ∃ haystack, before ++ c :: t = m.before ++ haystack ∧
            taken? needles m.before.getLast? haystack = some m.needle := by
      obtain ⟨far, haystack, eq, taken⟩ := ih inside
      rw [List.length_append, List.length_singleton] at far
      rw [List.append_assoc, List.singleton_append] at eq
      exact ⟨far, haystack, eq, taken⟩
    cases skip with
    | succ skip =>
      rw [matchesFrom] at member
      obtain ⟨far, rest⟩ := later member
      exact ⟨by omega, rest⟩
    | zero =>
      rw [matchesFrom] at member
      cases taken : taken? needles before.getLast? (c :: t) with
      | none =>
        simp only [taken] at member
        obtain ⟨far, rest⟩ := later member
        exact ⟨by omega, rest⟩
      | some needle =>
        simp only [taken] at member
        rcases List.mem_cons.mp member with rfl | inside
        · exact ⟨Nat.le_refl _, c :: t, rfl, taken⟩
        · obtain ⟨far, rest⟩ := later inside
          exact ⟨by omega, rest⟩

theorem matchesFrom_pairwise (needles : List Text) (skip : Nat) (before t : Text) :
    (matchesFrom needles skip before t).Pairwise fun a b =>
      a.before.length + a.needle.length ≤ b.before.length := by
  induction t generalizing skip before with
  | nil => simp [matchesFrom]
  | cons c t ih =>
    cases skip with
    | succ skip => exact ih skip (before ++ [c])
    | zero =>
      rw [matchesFrom]
      cases taken? needles before.getLast? (c :: t) with
      | none => exact ih 0 (before ++ [c])
      | some needle =>
        refine List.Pairwise.cons (fun m member => ?_) (ih _ _)
        have far := (taken_of_mem_matchesFrom member).1
        rw [List.length_append, List.length_singleton] at far
        simp only
        omega

/-- A needle that stands bounded behind the skipped characters is taken, or it begins inside an
occurrence that is taken. -/
theorem exists_mem_matchesFrom (skip : Nat) (before : Text) {needle middle rest : Text}
    (listed : needle ∈ needles) (nonempty : needle ≠ []) (eq : t = middle ++ needle ++ rest)
    (behind : skip ≤ middle.length) (bounded : StandsBetween (before ++ middle) needle rest) :
    ∃ m ∈ matchesFrom needles skip before t, m.before = before ++ middle ∨
      m.before.length < (before ++ middle).length ∧
        (before ++ middle).length < m.before.length + m.needle.length := by
  induction t generalizing skip before middle with
  | nil =>
    have lengths := congrArg List.length eq
    have positive := List.length_pos_iff.mpr nonempty
    simp only [List.length_nil, List.length_append] at lengths
    omega
  | cons c t ih =>
    cases middle with
    | nil =>
      have skipped : skip = 0 := Nat.le_zero.mp behind
      subst skipped
      cases taken : taken? needles before.getLast? (c :: t) with
      | none =>
        have stands : standsAt before.getLast? (c :: t) needle = true := by
          apply standsAt_iff.mpr
          exact ⟨rest, by simpa using eq, by simpa using bounded⟩
        exact absurd stands (List.find?_eq_none.mp taken needle listed)
      | some found =>
        simp only [matchesFrom, taken]
        exact ⟨_, List.mem_cons_self, .inl (List.append_nil before).symm⟩
    | cons d middle =>
      obtain ⟨rfl, eq'⟩ : c = d ∧ t = middle ++ needle ++ rest := by simpa using eq
      have regroup : before ++ c :: middle = (before ++ [c]) ++ middle := by simp
      rw [regroup] at bounded ⊢
      -- The place lies further on, so the search of the rest of the text decides.
      have later (skip : Nat) (behind : skip ≤ middle.length) :=
        ih skip (before ++ [c]) eq' behind bounded
      rw [List.length_cons] at behind
      cases skip with
      | succ skip => exact later skip (by omega)
      | zero =>
        cases taken : taken? needles before.getLast? (c :: t) with
        | none =>
          simp only [matchesFrom, taken]
          exact later 0 (Nat.zero_le _)
        | some found =>
          simp only [matchesFrom, taken]
          by_cases inside : middle.length + 1 < found.length
          · refine ⟨_, List.mem_cons_self, .inr ⟨?_, ?_⟩⟩
            · simp only [List.length_append, List.length_singleton]
              omega
            · simp only [List.length_append, List.length_singleton]
              omega
          · obtain ⟨m, member, place⟩ := later (found.length - 1) (by omega)
            exact ⟨m, List.mem_cons_of_mem _ member, place⟩

namespace Matcher

def matchesIn (matcher : Matcher) (content : Text) : List Match :=
  matchesFrom matcher.needles 0 [] content

theorem findAll_eq_map (matcher : Matcher) (content : Text) :
    matcher.findAll content = (matcher.matchesIn content).map fun m => byteLength m.before :=
  occurrencesFrom_eq_map matcher.needles 0 [] content

theorem ofNeedles?_eq_some_iff {needles : List Text} {matcher : Matcher} :
    ofNeedles? needles = some matcher ↔
      matcher.needles = needles.filter fun needle => !needle.isEmpty := by
  obtain ⟨kept, nonempty, eachNonempty⟩ := matcher
  by_cases some : needles.filter (fun needle => !needle.isEmpty) ≠ []
  · simp only [ofNeedles?, dif_pos some, Option.some.injEq, mk.injEq]
    exact eq_comm
  · simp only [ofNeedles?, dif_neg some, reduceCtorEq, false_iff]
    intro eq
    exact some (eq ▸ nonempty)

theorem mem_needles_iff {needles : List Text} {matcher : Matcher}
    (compiled : ofNeedles? needles = some matcher) {needle : Text} :
    needle ∈ matcher.needles ↔ needle ∈ needles ∧ needle ≠ [] := by
  rw [ofNeedles?_eq_some_iff.mp compiled, List.mem_filter]
  simp

variable {matcher : Matcher} {content : Text}

theorem first_of_mem_matchesIn {needles : List Text} (compiled : ofNeedles? needles = some matcher)
    (member : m ∈ matcher.matchesIn content) :
    ∃ earlier later, needles = earlier ++ m.needle :: later ∧ ∀ other ∈ earlier, other ≠ [] →
      ∀ rest, content = m.before ++ other ++ rest → ¬StandsBetween m.before other rest := by
  obtain ⟨-, haystack, eq, taken⟩ := taken_of_mem_matchesFrom member
  rw [taken?, ofNeedles?_eq_some_iff.mp compiled, List.find?_filter,
    List.find?_eq_some_iff_append] at taken
  obtain ⟨-, earlier, later, needles, refused⟩ := taken
  refine ⟨earlier, later, needles, ?_⟩
  intro other inside nonempty rest split bounded
  have same : haystack = other ++ rest := by
    rw [List.nil_append, split, List.append_assoc] at eq
    exact (List.append_cancel_left eq).symm
  have stands : standsAt m.before.getLast? haystack other = true :=
    standsAt_iff.mpr ⟨rest, same, bounded⟩
  have refusal := refused other inside
  simp [nonempty, stands] at refusal

theorem stands_of_mem_matchesIn (member : m ∈ matcher.matchesIn content) :
    m.needle ∈ matcher.needles ∧ ∃ rest, content = m.before ++ m.needle ++ rest ∧
      StandsBetween m.before m.needle rest := by
  obtain ⟨-, haystack, eq, taken⟩ := taken_of_mem_matchesFrom member
  obtain ⟨rest, split, bounded⟩ := standsAt_iff.mp (List.find?_some taken)
  rw [List.nil_append, split, ← List.append_assoc] at eq
  exact ⟨List.mem_of_find?_eq_some taken, rest, eq, bounded⟩

theorem exists_mem_matchesIn {before needle rest : Text} (listed : needle ∈ matcher.needles)
    (eq : content = before ++ needle ++ rest) (bounded : StandsBetween before needle rest) :
    ∃ m ∈ matcher.matchesIn content, m.before = before ∨
      m.before.length < before.length ∧ before.length < m.before.length + m.needle.length := by
  have nonempty := matcher.needle_ne_nil needle listed
  obtain ⟨m, member, place⟩ := exists_mem_matchesFrom 0 [] listed nonempty eq (Nat.zero_le _)
    bounded
  exact ⟨m, member, by simpa using place⟩

theorem matchesIn_pairwise (matcher : Matcher) (content : Text) :
    (matcher.matchesIn content).Pairwise fun a b =>
      byteLength a.before + byteLength a.needle ≤ byteLength b.before := by
  apply (matchesFrom_pairwise matcher.needles 0 [] content).imp_of_mem
  intro a b memberA memberB apart
  obtain ⟨-, restA, eqA, -⟩ := stands_of_mem_matchesIn memberA
  obtain ⟨-, restB, eqB, -⟩ := stands_of_mem_matchesIn memberB
  have first : a.before ++ a.needle <+: content := ⟨restA, eqA.symm⟩
  have second : b.before <+: content := ⟨b.needle ++ restB, by rw [eqB, List.append_assoc]⟩
  have shorter : (a.before ++ a.needle).length ≤ b.before.length := by
    rw [List.length_append]
    exact apart
  obtain ⟨between, eq⟩ := List.prefix_of_prefix_length_le first second shorter
  rw [← eq, byteLength_append, byteLength_append]
  omega

end Matcher
end SchemaTrace.Needle
