import SchemaTrace.Proofs.Text.Position

/-! Searching the table of line starts. The table increases, so every way of searching it leads to
the same line, and with it to the one position of an offset between two characters. -/

namespace SchemaTrace

open Text (byteLength byteLength_append)

inductive SearchAnswer where
  | found (place : Nat)
  | missing (place : Nat)
  deriving DecidableEq, Repr

namespace SearchAnswer

/-- The answers that are right for a search among some entries. -/
inductive Fits (entries : List Nat) (n : Nat) : SearchAnswer → Prop
  | found (before after : List Nat) : entries = before ++ n :: after →
      Fits entries n (.found before.length)
  | missing (before after : List Nat) : entries = before ++ after → (∀ entry ∈ before, entry < n) →
      (∀ entry ∈ after, n < entry) → Fits entries n (.missing before.length)

def count : SearchAnswer → Nat
  | found place => place + 1
  | missing place => place

variable {entries : List Nat} {n : Nat}

theorem Fits.count_le {answer : SearchAnswer} (fits : Fits entries n answer) :
    answer.count ≤ entries.length := by
  cases fits with
  | found before after split => simp [split, count]
  | missing before after split => simp [split, count]

theorem takeWhile_append_of_greater {upTo beyond : List Nat} (small : ∀ entry ∈ upTo, entry ≤ n)
    (great : ∀ entry ∈ beyond, n < entry) : (upTo ++ beyond).takeWhile (· ≤ n) = upTo := by
  rw [List.takeWhile_append_of_pos fun entry member => decide_eq_true (small entry member)]
  cases beyond with
  | nil => rw [List.takeWhile_nil, List.append_nil]
  | cons entry rest =>
    have greater := great entry List.mem_cons_self
    rw [List.takeWhile_cons_of_neg (by simpa using greater), List.append_nil]

theorem Fits.take_count {answer : SearchAnswer} (fits : Fits entries n answer)
    (increasing : entries.Pairwise (· < ·)) :
    entries.take answer.count = entries.takeWhile (· ≤ n) := by
  cases fits with
  | found before after split =>
    obtain ⟨-, behind, ahead⟩ := List.pairwise_append.mp (split ▸ increasing)
    have whole : entries = (before ++ [n]) ++ after := by
      rw [split, List.append_assoc, List.singleton_append]
    have small : ∀ entry ∈ before ++ [n], entry ≤ n := by
      intro entry member
      rcases List.mem_append.mp member with earlier | here
      · exact Nat.le_of_lt (ahead entry earlier n List.mem_cons_self)
      · exact Nat.le_of_eq (List.mem_singleton.mp here)
    have great : ∀ entry ∈ after, n < entry := fun _ => List.rel_of_pairwise_cons behind
    rw [whole, takeWhile_append_of_greater small great, count, List.take_left' (by simp)]
  | missing before after split small great =>
    have upTo : ∀ entry ∈ before, entry ≤ n := fun entry member =>
      Nat.le_of_lt (small entry member)
    rw [split, takeWhile_append_of_greater upTo great, count, List.take_left' rfl]

theorem exists_fits (increasing : entries.Pairwise (· < ·)) (n : Nat) :
    ∃ answer, Fits entries n answer := by
  induction entries with
  | nil => exact ⟨_, .missing [] [] rfl (by simp) (by simp)⟩
  | cons first rest ih =>
    rcases Nat.lt_trichotomy first n with less | rfl | greater
    · obtain ⟨answer, fits⟩ := ih increasing.of_cons
      cases fits with
      | found before after split =>
        exact ⟨_, .found (first :: before) after (congrArg (first :: ·) split)⟩
      | missing before after split small great =>
        have smaller : ∀ entry ∈ first :: before, entry < n :=
          List.forall_mem_cons.mpr ⟨less, small⟩
        exact ⟨_, .missing (first :: before) after (congrArg (first :: ·) split) smaller great⟩
    · exact ⟨_, .found [] rest rfl⟩
    · have behind : ∀ entry ∈ rest, n < entry := fun entry later =>
        Nat.lt_trans greater (List.rel_of_pairwise_cons increasing later)
      have great := List.forall_mem_cons.mpr ⟨greater, behind⟩
      exact ⟨_, .missing [] (first :: rest) rfl (by simp) great⟩

end SearchAnswer

namespace LineIndex

open SearchAnswer (Fits)

/-- The position of an offset by the answer of a search for it among the line starts: the line is
the last one that starts no later, and the end of the text bounds the column. -/
def locateBy? (index : LineIndex) (offset : Nat) (answer : SearchAnswer) : Option Position :=
  match answer.count with
  | 0 => none
  | line + 1 => do
    let start ← index.starts[line]?
    let rest ← Text.fromByte? start index.content
    let column ← Text.charsBefore? (min offset (byteLength index.content) - start) rest
    some ⟨line + 1, column + 1⟩

theorem increasing_startsFrom (offset : Nat) (t : Text) :
    (startsFrom offset t).Pairwise (· < ·) := by
  induction t generalizing offset with
  | nil => exact .nil
  | cons c t ih =>
    rw [startsFrom]
    split
    · exact .cons (fun start member => (mem_startsFrom member).1) (ih _)
    · exact ih _

theorem increasing_starts (content : Text) : (ofText content).starts.Pairwise (· < ·) :=
  .cons (fun _ member => (mem_startsFrom member).1) (increasing_startsFrom 0 content)

theorem locateBy?_eq {index : LineIndex} {offset : Nat} {answer : SearchAnswer}
    (increasing : index.starts.Pairwise (· < ·)) (fits : Fits index.starts offset answer)
    (inside : offset ≤ byteLength index.content) :
    index.locateBy? offset answer = index.locate? offset := by
  have taken := fits.take_count increasing
  have within := fits.count_le
  rw [locateBy?, locate?, ← taken]
  cases counted : answer.count with
  | zero => rfl
  | succ line =>
    rw [counted] at within
    have last : (index.starts.take (line + 1)).getLast? = index.starts[line]? := by
      rw [List.getLast?_take, if_neg (Nat.succ_ne_zero line), Nat.add_sub_cancel,
        List.getElem?_eq_getElem within, Option.some_or]
    simp only [last, List.length_take, Nat.min_eq_left within, Nat.min_eq_left inside]

/-- An offset between two characters of a text, or at one of its ends. -/
def IsBoundary (content : Text) (offset : Nat) : Prop :=
  ∃ before rest, content = before ++ rest ∧ byteLength before = offset

theorem locate_before_locate_of_lt {content : Text} {a b : Nat} (first : IsBoundary content a)
    (second : IsBoundary content b) (less : a < b) :
    ((ofText content).locate a).Before ((ofText content).locate b) := by
  obtain ⟨before, rest, here, rfl⟩ := first
  obtain ⟨before', rest', there, rfl⟩ := second
  exact locate_before_locate here there less

theorem eq_of_locate_eq {content : Text} {a b : Nat} (first : IsBoundary content a)
    (second : IsBoundary content b)
    (same : (ofText content).locate a = (ofText content).locate b) : a = b := by
  rcases Nat.lt_trichotomy a b with less | eq | more
  · exact absurd (same ▸ locate_before_locate_of_lt first second less) (Position.Before.irrefl _)
  · exact eq
  · exact absurd (same ▸ locate_before_locate_of_lt second first more) (Position.Before.irrefl _)

structure LocatesExactly (index : LineIndex) : Prop where
  /-- The table of line starts can be searched for every offset. -/
  searchable : ∀ offset, ∃ answer, Fits index.starts offset answer
  /-- The line counts the newlines before the offset and the column the characters behind the last
  of them, whatever the search answers. -/
  position : ∀ before rest, index.content = before ++ rest →
    index.locate? (byteLength before) = some (.after before) ∧
      ∀ answer, Fits index.starts (byteLength before) answer →
        index.locateBy? (byteLength before) answer = some (.after before)
  increasing : ∀ a b, IsBoundary index.content a → IsBoundary index.content b → a < b →
    (index.locate a).Before (index.locate b)
  injective : ∀ a b, IsBoundary index.content a → IsBoundary index.content b →
    index.locate a = index.locate b → a = b

/-- Every offset between two characters of a text has a position of its own, which tells how many
lines and characters stand before it. -/
theorem ofText_locatesExactly (content : Text) : LocatesExactly (ofText content) where
  searchable := SearchAnswer.exists_fits (increasing_starts content)
  position before rest split := by
    change content = before ++ rest at split
    subst split
    have located := locate?_of_append before rest
    refine ⟨located, fun answer fits => ?_⟩
    have inside : byteLength before ≤ byteLength (before ++ rest) := by
      rw [byteLength_append]
      exact Nat.le_add_right _ _
    rw [locateBy?_eq (increasing_starts (before ++ rest)) fits inside, located]
  increasing _ _ first second less := locate_before_locate_of_lt first second less
  injective _ _ first second same := eq_of_locate_eq first second same

/-- A character of two bytes is one column. -/
example : (ofText "ab\ncd\n\nüx".toList).locate 9 = ⟨4, 2⟩ := by decide

end LineIndex
end SchemaTrace
