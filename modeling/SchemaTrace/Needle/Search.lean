import SchemaTrace.Text.Basic
import SchemaTrace.Text.Alphanumeric
/-!
Finding needles in source text. An occurrence counts if both its edges are bounded: by the edge
of a word, by whitespace or by a parenthesis. At each place the first bounded needle in the order
of the list is taken, and occurrences that are taken do not overlap.
-/
namespace SchemaTrace.Needle

open Text

def isWord (c : Option Char) : Bool := c.any fun c => isAsciiAlphanumeric c || c = '_'

def isSeparator (c : Option Char) : Bool := c.any fun c => isWhitespace c || c = '(' || c = ')'

def isBounded (before : Option Char) (needle : Text) (after : Option Char) : Bool :=
  (isWord before != isWord needle.head? || isSeparator before) &&
    (isWord needle.getLast? != isWord after || isSeparator after)

def standsAt (before : Option Char) (haystack needle : Text) : Bool :=
  match after? needle haystack with
  | none => false
  | some rest => isBounded before needle rest.head?

def taken? (needles : List Text) (before : Option Char) (haystack : Text) : Option Text :=
  needles.find? (standsAt before haystack)

/-- Byte offsets of the occurrences taken in a text that starts at byte `offset`, of which the
first `skip` characters belong to an occurrence already taken. -/
def occurrencesFrom (needles : List Text) :
    (skip : Nat) → (before : Option Char) → (offset : Nat) → Text → List Nat
  | _, _, _, [] => []
  | skip + 1, _, offset, c :: t =>
    occurrencesFrom needles skip (some c) (offset + c.utf8Size) t
  | 0, before, offset, c :: t =>
    match taken? needles before (c :: t) with
    | none => occurrencesFrom needles 0 (some c) (offset + c.utf8Size) t
    | some needle =>
      offset :: occurrencesFrom needles (needle.length - 1) (some c) (offset + c.utf8Size) t

structure Matcher where
  needles : List Text
  nonempty : needles ≠ []
  needle_ne_nil : ∀ needle ∈ needles, needle ≠ []

namespace Matcher

/-- Empty needles are left out; there is no matcher without needles. -/
def ofNeedles? (needles : List Text) : Option Matcher :=
  let kept := needles.filter fun needle => !needle.isEmpty
  if h : kept ≠ [] then
    some ⟨kept, h, fun needle member => by
      have nonempty := (List.mem_filter.mp member).2
      intro eq
      simp [eq] at nonempty⟩
  else none

def findAll (m : Matcher) (haystack : Text) : List Nat :=
  occurrencesFrom m.needles 0 none 0 haystack

end Matcher
end SchemaTrace.Needle
