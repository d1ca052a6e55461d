import SchemaTrace.Text.Basic
/-!
The lines of a text: each without its newline and one carriage return before that; a newline at
the end begins no further line.
-/
namespace SchemaTrace.Text

def dropReturn (line : Text) : Text := (before? ['\r'] line).getD line

/-- Lines of a non-empty list of pieces between newlines; the last piece ends with no newline. -/
def linesOfPieces : List Text → List Text
  | [] => []
  | [last] => if last.isEmpty then [] else [last]
  | piece :: pieces => dropReturn piece :: linesOfPieces pieces

def lines (s : String) : List String := (linesOfPieces (splitLines s.toList)).map String.ofList

end SchemaTrace.Text
