/-!
Structured documents as they are read from text. A document may stop being readable part of the
way through: what was read before that point is kept, and the place where the text breaks off is
marked in the tree, so that whoever reads the document meets the first problem in text order.
-/
namespace SchemaTrace

inductive Fault where
  /-- The text ends where more of it is needed. -/
  | ended
  /-- The text ends after an element of a list. -/
  | listEnded
  /-- The text ends within a number. -/
  | numberEnded
  | malformed
  deriving DecidableEq, Repr

/-- Which part of an entry cannot be read although its text is well formed. -/
inductive Flaw where
  | key
  | value
  deriving DecidableEq, Repr

inductive Document where
  | null
  | bool (b : Bool)
  /-- A natural number written as such. -/
  | natural (n : Nat)
  /-- Any other number, as it is written. -/
  | fraction (source : String)
  | text (s : String)
  | list (items : List Document)
  /-- Fields in text order; a name may occur more than once. -/
  | record (fields : List (String × Document))
  /-- An unquoted scalar: its text, and the value it stands for where any value will do. -/
  | plain (source : String) (value : Document)
  /-- A part that can be skipped but not read. -/
  | flawed (what : Flaw) (inner : Document)
  /-- The text breaks off here. -/
  | broken (fault : Fault)

namespace Document

inductive DecodeError where
  | mismatch
  | missing (field : String)
  | duplicated (field : String)
  /-- A list holds more elements than the record it stands for has fields. -/
  | surplus
  | fault (why : Fault)
  deriving DecidableEq, Repr

def DecodeError.message : DecodeError → String
  | .mismatch => "a value has the wrong shape"
  | .missing field => "missing field " ++ field
  | .duplicated field => "duplicate field " ++ field
  | .surplus => "too many elements"
  | .fault .malformed => "malformed text"
  | .fault _ => "the text ends too early"

mutual

/-- Passes over a value that nobody reads: only malformed text matters. -/
def skip : Document → Except DecodeError Unit
  | .broken .numberEnded => .error (.fault .malformed)
  | .broken fault => .error (.fault fault)
  | .flawed _ inner => skip inner
  | .list items => skipItems items
  | .record fields => skipFields fields
  | _ => .ok ()

def skipItems : List Document → Except DecodeError Unit
  | [] => .ok ()
  | item :: items => do skip item; skipItems items

def skipFields : List (String × Document) → Except DecodeError Unit
  | [] => .ok ()
  | (_, value) :: fields => do skip value; skipFields fields

end

mutual

def content : Document → Except DecodeError Document
  | .broken fault => .error (.fault fault)
  | .flawed _ _ => .error (.fault .malformed)
  | .plain _ value => content value
  | .list items => (contentItems items).map .list
  | .record fields => (contentFields fields).map .record
  | doc => .ok doc

def contentItems : List Document → Except DecodeError (List Document)
  | [] => .ok []
  | item :: items => do
    let item ← content item
    let items ← contentItems items
    return item :: items

def contentFields : List (String × Document) → Except DecodeError (List (String × Document))
  | [] => .ok []
  | (name, value) :: fields => do
    let value ← content value
    let fields ← contentFields fields
    return (name, value) :: fields

end

mutual

def depth : Document → Nat
  | .list items => depthItems items + 1
  | .record fields => depthFields fields + 1
  | .plain _ value => depth value
  | .flawed _ inner => depth inner
  | _ => 0

def depthItems : List Document → Nat
  | [] => 0
  | item :: items => max (depth item) (depthItems items)

def depthFields : List (String × Document) → Nat
  | [] => 0
  | (_, value) :: fields => max (depth value) (depthFields fields)

end

end Document
end SchemaTrace
