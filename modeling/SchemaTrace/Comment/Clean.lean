import SchemaTrace.Text.Basic
/-!
The prose of a comment: delimiters, line markers, blank edge lines, trailing whitespace and the
common indentation are removed.
-/
namespace SchemaTrace.Comment

open Text

def afterOpening? (raw : Text) : Option Text :=
  (after? ['/', '*', '*'] raw).orElse fun _ => after? ['/', '*'] raw

def dropLineMarker (line : Text) : Text :=
  match after? ['/', '/'] (trimStart line) with
  | none => line
  | some rest => ((after? ['/'] rest).orElse fun _ => after? ['!'] rest).getD rest

/-- Removes a leading star, unless it closes a block, and at most one space after it. -/
def dropStarMarker (line : Text) : Text :=
  match after? ['*'] (trimStart line) with
  | none => line
  | some rest => if startsWith ['/'] rest then line else (after? [' '] rest).getD rest

/-- One line without its markers. Padding after an opening delimiter is not indentation. -/
def cleanLine (opens : Bool) (line : Text) : Text :=
  let line := dropLineMarker line
  trimEnd (dropStarMarker (if opens then trimStart line else line))

def cleanLines (opens : Bool) : List Text → List Text
  | [] => []
  | line :: lines => cleanLine opens line :: lines.map (cleanLine false)

def dropEmptyEdges (lines : List Text) : List Text :=
  ((lines.dropWhile List.isEmpty).reverse.dropWhile List.isEmpty).reverse

def indentation (line : Text) : Nat := byteLength (line.takeWhile isBlank)

def commonIndentation (lines : List Text) : Nat :=
  (((lines.filter fun line => !(trim line).isEmpty).map indentation).min?).getD 0

/-- Cuts the first `width` bytes off every line; a line they do not divide becomes empty. -/
def dedent (width : Nat) (lines : List Text) : List Text :=
  lines.map fun line => (fromByte? width line).getD []

def body (raw : Text) : Text :=
  let opened := (afterOpening? raw).getD raw
  (before? ['*', '/'] opened).getD opened

def proseLines (raw : Text) : List Text :=
  dropEmptyEdges (cleanLines (afterOpening? raw).isSome (splitLines (body raw)))

def clean (raw : Text) : Text :=
  let lines := proseLines raw
  joinLines (dedent (commonIndentation lines) lines)

end SchemaTrace.Comment
