import SchemaTrace.Text.Basic
import SchemaTrace.Text.Alphanumeric
/-!
Mentions of symbols in the prose of a comment: a tag, whitespace, then a symbol such as
`Domain.method`. A symbol neither starts nor ends with a dot, so the full stop of a sentence does
not belong to it.
-/
namespace SchemaTrace.Comment

open Text

def isSymbolChar (c : Char) : Bool := isAlphanumeric c || c = '_' || c = '$' || c = '.'

/-- A mentioned symbol and the byte length from its tag to its end. -/
structure Mention where
  symbol : Text
  length : Nat
  deriving DecidableEq, Repr

def symbolAfterTag? (rest : Text) : Option (Text × Text) :=
  let gap := rest.takeWhile isWhitespace
  let symbol := dropTail (· = '.') ((rest.dropWhile isWhitespace).takeWhile isSymbolChar)
  if gap.isEmpty || symbol.isEmpty || symbol.head? = some '.' then none else some (gap, symbol)

/-- The mentions in a text of which the first `skip` characters are already read. After a mention
the search goes on behind its symbol, after a bare tag behind the tag. -/
def mentionsFrom (tag : Text) : (skip : Nat) → Text → List Mention
  | _, [] => []
  | skip + 1, _ :: t => mentionsFrom tag skip t
  | 0, c :: t =>
    match after? tag (c :: t) with
    | none => mentionsFrom tag 0 t
    | some rest =>
      match symbolAfterTag? rest with
      | none => mentionsFrom tag (tag.length - 1) t
      | some (gap, symbol) =>
        ⟨symbol, byteLength (tag ++ gap ++ symbol)⟩ ::
          mentionsFrom tag ((tag ++ gap ++ symbol).length - 1) t

def mentions (tag prose : Text) : List Mention := mentionsFrom tag 0 prose

def firstMentions (seen : List Text) : List Mention → List Mention
  | [] => []
  | m :: rest =>
    if m.symbol ∈ seen then firstMentions seen rest
    else m :: firstMentions (m.symbol :: seen) rest

end SchemaTrace.Comment
