import SchemaTrace.Glob.Match
import SchemaTrace.Text.Lines
/-!
Rules of ignore files. A line is a pattern for paths below the directory of its file; of the lines
that match a path the last one decides. A pattern without a slash matches at any depth, one that
ends with a slash matches directories only, and one that starts with `!` keeps what it matches.
-/
namespace SchemaTrace.Checkout

inductive Verdict where
  | ignored
  | kept
  deriving DecidableEq, Repr

structure IgnoreRule where
  pattern : List Glob.Token
  verdict : Verdict
  directoriesOnly : Bool

namespace IgnoreRule

def readMarks (line : Text) : Verdict × Bool × Text :=
  match line with
  | '\\' :: '!' :: t => (.ignored, false, '!' :: t)
  | '\\' :: '#' :: t => (.ignored, false, '#' :: t)
  | '!' :: '/' :: t => (.kept, true, t)
  | '!' :: t => (.kept, false, t)
  | '/' :: t => (.ignored, true, t)
  | t => (.ignored, false, t)

def readDirectoryMark (pattern : Text) : Bool × Text :=
  match pattern.reverse with
  | '/' :: '\\' :: t => (true, t.reverse)
  | '/' :: t => (true, t.reverse)
  | _ => (false, pattern)

def anyDepth : Text := ['*', '*', '/']

/-- A pattern without a slash matches at any depth. -/
def spread (anchored : Bool) (pattern : Text) : Text :=
  if anchored || '/' ∈ pattern || pattern = ['*', '*'] then pattern
  else anyDepth ++ pattern

/-- What lies below a directory does not include the directory. -/
def excludeSelf (pattern : Text) : Text :=
  if (Text.before? ['/', '*', '*'] pattern).isSome then pattern ++ ['/', '*'] else pattern

/-- Blanks at the end of a line do not count, unless the last is escaped. -/
def trimLine (line : Text) : Text :=
  if (Text.before? ['\\', ' '] line).isSome then line else Text.trimEnd line

/-- The rule of a line; comments, empty lines and faulty patterns hold none. -/
def ofLine? (line : Text) : Option IgnoreRule :=
  if Text.startsWith ['#'] line then none
  else
    let line := trimLine line
    if line.isEmpty then none
    else
      let (verdict, anchored, pattern) := readMarks line
      let (directoriesOnly, pattern) := readDirectoryMark pattern
      match Glob.parseLoose (String.ofList (excludeSelf (spread anchored pattern))) with
      | .ok pattern => some ⟨pattern, verdict, directoriesOnly⟩
      | .error _ => none

def applies (rule : IgnoreRule) (path : String) (isDirectory : Bool) : Bool :=
  (isDirectory || !rule.directoriesOnly) && Glob.isPathMatch rule.pattern path

end IgnoreRule

abbrev IgnoreRules := List IgnoreRule

namespace IgnoreRules

def splitBytes : List UInt8 → List (List UInt8)
  | [] => [[]]
  | b :: rest =>
    if b = 10 then [] :: splitBytes rest
    else match splitBytes rest with
      | [] => [[b]]
      | line :: lines => (b :: line) :: lines

/-- The lines up to the first one that is no text. -/
def readableLines : List (List UInt8) → List Text
  | [] => []
  | line :: rest =>
    match String.fromUTF8? ⟨line.toArray⟩ with
    | some text => Text.dropReturn text.toList :: readableLines rest
    | none => []

def dropMark : List Text → List Text
  | [] => []
  | line :: rest => line.dropWhile (· = '\ufeff') :: rest

def ofBytes (content : ByteArray) : IgnoreRules :=
  (dropMark (readableLines (splitBytes content.toList))).filterMap IgnoreRule.ofLine?

def verdict? (rules : IgnoreRules) (path : String) (isDirectory : Bool) : Option Verdict :=
  (rules.reverse.find? fun rule => rule.applies path isDirectory).map (·.verdict)

end IgnoreRules
end SchemaTrace.Checkout
