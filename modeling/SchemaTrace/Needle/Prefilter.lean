import SchemaTrace.Needle.Search
/-!
Searching with a prefilter. A search for the plain needles, whatever stands at their edges, names
the next place where one of them begins; all places before it are passed over. At that place the
needles are tried in the order of the list. The search goes on behind the occurrence that is taken,
or one character further if none of them stands bounded.
-/
namespace SchemaTrace.Needle

open Text

def BeginsAt (needles : List Text) (haystack : Text) (offset : Nat) : Prop :=
  ∃ needle ∈ needles, ∃ before rest,
    haystack = before ++ needle ++ rest ∧ byteLength before = offset

/-- A search for the leftmost place, at a byte offset or behind it, at which a needle begins. -/
structure Prefilter (needles : List Text) where
  next? : (haystack : Text) → (offset : Nat) → Option Nat
  next?_eq_some_iff : ∀ haystack offset start, next? haystack offset = some start ↔
    offset ≤ start ∧ BeginsAt needles haystack start ∧
      ∀ place, offset ≤ place → place < start → ¬BeginsAt needles haystack place

def splitAtByte? : Nat → Text → Option (Text × Text)
  | 0, t => some ([], t)
  | _ + 1, [] => none
  | n + 1, c :: t =>
    if c.utf8Size ≤ n + 1 then
      (splitAtByte? (n + 1 - c.utf8Size) t).map fun (before, rest) => (c :: before, rest)
    else none

/-- The number of bytes of the character at an offset; the end of the text counts as one. -/
def widthAt (haystack : Text) (offset : Nat) : Nat :=
  (((fromByte? offset haystack).bind List.head?).map Char.utf8Size).getD 1

theorem widthAt_pos (haystack : Text) (offset : Nat) : 0 < widthAt haystack offset := by
  unfold widthAt
  cases (fromByte? offset haystack).bind List.head? with
  | none => exact Nat.one_pos
  | some c => exact c.utf8Size_pos

namespace Matcher

def takenAt? (m : Matcher) (haystack : Text) (offset : Nat) : Option Text := do
  let (before, rest) ← splitAtByte? offset haystack
  taken? m.needles before.getLast? rest

theorem byteLength_pos_of_takenAt? {m : Matcher} {haystack needle : Text} {offset : Nat}
    (taken : m.takenAt? haystack offset = some needle) : 0 < byteLength needle := by
  rw [takenAt?, Option.bind_eq_bind, Option.bind_eq_some_iff] at taken
  obtain ⟨_, -, found⟩ := taken
  cases needle with
  | nil => exact absurd rfl (m.needle_ne_nil [] (List.mem_of_find?_eq_some found))
  | cons c t => exact Nat.add_pos_left c.utf8Size_pos _

def searchFrom (m : Matcher) (p : Prefilter m.needles) (haystack : Text) (offset : Nat) :
    List Nat :=
  if offset < byteLength haystack then
    match _found : p.next? haystack offset with
    | none => []
    | some start =>
      match _taken : m.takenAt? haystack start with
      | some needle => start :: searchFrom m p haystack (start + byteLength needle)
      | none => searchFrom m p haystack (start + widthAt haystack start)
  else []
termination_by byteLength haystack - offset
decreasing_by
  · have behind := ((p.next?_eq_some_iff haystack offset start).mp _found).1
    have width := byteLength_pos_of_takenAt? _taken
    omega
  · have behind := ((p.next?_eq_some_iff haystack offset start).mp _found).1
    have width := widthAt_pos haystack start
    omega

def search (m : Matcher) (p : Prefilter m.needles) (haystack : Text) : List Nat :=
  searchFrom m p haystack 0

end Matcher
end SchemaTrace.Needle
