import SchemaTrace.Comment.Clean
import SchemaTrace.Comment.Mention
import SchemaTrace.Comment.Span
import SchemaTrace.SortedMap
import SchemaTrace.Text.Position
/-!
Annotations: what the tagged comments of one text say about each symbol they mention. A comment
annotates a symbol once, however often it mentions it.
-/
namespace SchemaTrace.Comment

open Text

def defaultTag : String := "@cdp"

structure Annotation where
  position : Position
  text : String
  /-- Whether the comment says more than the tag and the symbol. -/
  contentful : Bool
  deriving DecidableEq, Repr

def withoutLeadingTag (tag prose : Text) : Text :=
  match after? tag prose with
  | none => prose
  | some rest => if rest.head?.any isWhitespace then trimStart rest else prose

/-- The symbols that one comment annotates, in order of first mention. -/
def annotationsOf (tag : Text) (lines : LineIndex) (span : Span) : List (Text × Annotation) :=
  if contains tag span.raw then
    let prose := clean span.raw
    let text := String.ofList (withoutLeadingTag tag prose)
    (firstMentions [] (mentions tag prose)).map fun m =>
      (m.symbol, ⟨lines.locate span.start, text, byteLength prose > m.length⟩)
  else []

def annotations (tag content : Text) : List (Text × Annotation) :=
  if tag.isEmpty || !contains tag content then []
  else (spans content).flatMap (annotationsOf tag (.ofText content))

def parse (tag content : Text) : SortedMap (List Annotation) :=
  (annotations tag content).foldl
    (fun found (symbol, a) => found.append (String.ofList symbol) [a]) .empty

end SchemaTrace.Comment
