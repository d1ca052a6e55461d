/-!
Text as a list of characters: whitespace, trimming, splitting, and byte offsets into its UTF-8
form. Byte offsets that fall inside a character name no place in the text.
-/
namespace SchemaTrace

abbrev Text := List Char

namespace Text

def isWhitespace (c : Char) : Bool :=
  let n := c.toNat
  (9 ≤ n && n ≤ 13) || n = 32 || n = 133 || n = 160 || n = 5760 || (8192 ≤ n && n ≤ 8202) ||
    n = 8232 || n = 8233 || n = 8239 || n = 8287 || n = 12288

/-- Spaces and tabs, the characters that may stand before a comment on its own line. -/
def isBlank (c : Char) : Bool := c = ' ' || c = '\t'

def dropTail (p : Char → Bool) (t : Text) : Text := (t.reverse.dropWhile p).reverse

def trimStart (t : Text) : Text := t.dropWhile isWhitespace

def trimEnd (t : Text) : Text := dropTail isWhitespace t

def trim (t : Text) : Text := trimEnd (trimStart t)

def after? : (lead t : Text) → Option Text
  | [], t => some t
  | _ :: _, [] => none
  | l :: lead, c :: t => if l = c then after? lead t else none

def before? (tail t : Text) : Option Text := (after? tail.reverse t.reverse).map List.reverse

def startsWith (lead t : Text) : Bool := (after? lead t).isSome

def contains (needle : Text) : Text → Bool
  | [] => needle.isEmpty
  | c :: t => startsWith needle (c :: t) || contains needle t

def splitFirst? (sep : Char) : Text → Option (Text × Text)
  | [] => none
  | c :: t => if c = sep then some ([], t) else (splitFirst? sep t).map fun (a, b) => (c :: a, b)

def splitLast? (sep : Char) (t : Text) : Option (Text × Text) :=
  (splitFirst? sep t.reverse).map fun (a, b) => (b.reverse, a.reverse)

def splitAll (sep : Char) : Text → List Text
  | [] => [[]]
  | c :: t =>
    if c = sep then [] :: splitAll sep t
    else match splitAll sep t with
      | [] => [[c]]
      | piece :: pieces => (c :: piece) :: pieces

def splitLines : Text → List Text := splitAll '\n'

def joinLines (lines : List Text) : Text := List.intercalate ['\n'] lines

/-- Every occurrence of the non-empty `needle`, left to right and not overlapping, replaced by
`value`. `skip` counts the characters that still belong to the last occurrence. -/
def replaceFrom (needle value : Text) : (skip : Nat) → Text → Text
  | _, [] => []
  | skip + 1, _ :: t => replaceFrom needle value skip t
  | 0, c :: t =>
    if startsWith needle (c :: t) then value ++ replaceFrom needle value (needle.length - 1) t
    else c :: replaceFrom needle value 0 t

def replace (needle value t : Text) : Text := replaceFrom needle value 0 t

def byteLength : Text → Nat
  | [] => 0
  | c :: t => c.utf8Size + byteLength t

def fromByte? : Nat → Text → Option Text
  | 0, t => some t
  | _ + 1, [] => none
  | n + 1, c :: t => if c.utf8Size ≤ n + 1 then fromByte? (n + 1 - c.utf8Size) t else none

def charsBefore? : Nat → Text → Option Nat
  | 0, _ => some 0
  | _ + 1, [] => none
  | n + 1, c :: t =>
    if c.utf8Size ≤ n + 1 then (charsBefore? (n + 1 - c.utf8Size) t).map (· + 1) else none

end Text
end SchemaTrace
