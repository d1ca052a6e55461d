import SchemaTrace.Text.Basic
/-!
Lines and columns: byte offsets into a text turned into one-based positions. Only a newline ends
a line, and columns count characters.
-/
namespace SchemaTrace

structure Position where
  line : Nat
  column : Nat
  deriving DecidableEq, Repr

/-- A text with the byte offsets at which its lines start, in increasing order. -/
structure LineIndex where
  content : Text
  starts : List Nat

namespace LineIndex

def startsFrom (offset : Nat) : Text → List Nat
  | [] => []
  | c :: t =>
    let next := offset + c.utf8Size
    if c = '\n' then next :: startsFrom next t else startsFrom next t

def ofText (content : Text) : LineIndex := ⟨content, 0 :: startsFrom 0 content⟩

def locate? (index : LineIndex) (offset : Nat) : Option Position := do
  let before := index.starts.takeWhile (· ≤ offset)
  let start ← before.getLast?
  let line ← Text.fromByte? start index.content
  let column ← Text.charsBefore? (offset - start) line
  some ⟨before.length, column + 1⟩

/-- The position of a byte offset; the start of the text stands for an offset inside a character. -/
def locate (index : LineIndex) (offset : Nat) : Position := (index.locate? offset).getD ⟨1, 1⟩

end LineIndex
end SchemaTrace
