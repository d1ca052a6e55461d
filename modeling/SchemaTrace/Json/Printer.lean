import SchemaTrace.Document.Basic
import SchemaTrace.Text.Basic
/-!
Writing JSON text, on one line or indented by two spaces a level.
-/
namespace SchemaTrace.Json

def hexDigit (n : Nat) : Char := (Nat.toDigits 16 n).headD '0'

def escapeChar (c : Char) : Text :=
  match c with
  | '"' => ['\\', '"']
  | '\\' => ['\\', '\\']
  | '\x08' => ['\\', 'b']
  | '\x0c' => ['\\', 'f']
  | '\n' => ['\\', 'n']
  | '\r' => ['\\', 'r']
  | '\t' => ['\\', 't']
  | c =>
    if c.toNat < 32 then ['\\', 'u', '0', '0', hexDigit (c.toNat / 16), hexDigit (c.toNat % 16)]
    else [c]

def escaped (s : String) : String := String.ofList ('"' :: s.toList.flatMap escapeChar ++ ['"'])

def indentation (level : Nat) : String := String.ofList (List.replicate (2 * level) ' ')

mutual

def compact : Document → String
  | .null => "null"
  | .bool b => if b then "true" else "false"
  | .natural n => toString n
  | .fraction source => source
  | .text s => escaped s
  | .list items => "[" ++ ",".intercalate (compactItems items) ++ "]"
  | .record fields => "\x7b" ++ ",".intercalate (compactFields fields) ++ "\x7d"
  | .plain _ value => compact value
  | .flawed _ _ => "null"
  | .broken _ => "null"

def compactItems : List Document → List String
  | [] => []
  | item :: items => compact item :: compactItems items

def compactFields : List (String × Document) → List String
  | [] => []
  | (name, value) :: fields => (escaped name ++ ":" ++ compact value) :: compactFields fields

end

mutual

def prettyAt (level : Nat) : Document → String
  | .list [] => "[]"
  | .record [] => "\x7b\x7d"
  | .list items =>
    "[\n" ++ ",\n".intercalate (prettyItems (level + 1) items) ++ "\n" ++ indentation level ++ "]"
  | .record fields =>
    "\x7b\n" ++ ",\n".intercalate (prettyFields (level + 1) fields) ++ "\n" ++ indentation level ++
      "\x7d"
  | .plain _ value => prettyAt level value
  | doc => compact doc

def prettyItems (level : Nat) : List Document → List String
  | [] => []
  | item :: items => (indentation level ++ prettyAt level item) :: prettyItems level items

def prettyFields (level : Nat) : List (String × Document) → List String
  | [] => []
  | (name, value) :: fields =>
    (indentation level ++ escaped name ++ ": " ++ prettyAt level value) :: prettyFields level fields

end

def pretty (doc : Document) : String := prettyAt 0 doc

end SchemaTrace.Json
