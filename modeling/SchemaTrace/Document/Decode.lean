import SchemaTrace.Document.Basic
import SchemaTrace.SortedMap
/-!
Reading values from documents. A record is read field by field; whatever is wrong with it, the
problem that stands first in the text is the one reported, also when it concerns a field that is
ignored. A record may be given as the list of its fields where the format admits that.
-/
namespace SchemaTrace.Document

abbrev Decoder (α : Type) := Document → Except DecodeError α

namespace Decode

def refuse {α : Type} : Decoder α
  | .broken fault => .error (.fault fault)
  | .flawed _ _ => .error (.fault .malformed)
  | _ => .error .mismatch

def text : Decoder String
  | .text s => .ok s
  | .plain source _ => .ok source
  | doc => refuse doc

def bool : Decoder Bool
  | .bool b => .ok b
  | .plain _ (.bool b) => .ok b
  | doc => refuse doc

def natural : Decoder Nat
  | .natural n => .ok n
  | .plain _ (.natural n) => .ok n
  | doc => refuse doc

def nullable {α : Type} (decode : Decoder α) : Decoder (Option α)
  | .null => .ok none
  | .plain _ .null => .ok none
  | doc => (decode doc).map some

def items {α : Type} (decode : Decoder α) : List Document → Except DecodeError (List α)
  | [] => .ok []
  | item :: rest => do
    let item ← decode item
    let rest ← items decode rest
    return item :: rest

def list {α : Type} (decode : Decoder α) : Decoder (List α)
  | .list docs => items decode docs
  | .plain "" _ => .ok []
  | doc => refuse doc

def entries {α : Type} (decode : Decoder α) :
    List (String × Document) → Except DecodeError (List (String × α))
  | [] => .ok []
  | (key, value) :: rest => do
    let value ← decode value
    let rest ← entries decode rest
    return (key, value) :: rest

/-- A mapping with arbitrary keys; of equal keys the last one counts. -/
def map {α : Type} (decode : Decoder α) : Decoder (SortedMap α)
  | .record fields => (entries decode fields).map .ofList
  | .plain "" _ => .ok .empty
  | doc => refuse doc

end Decode

/-- A problem with the field at a position of a record; the number of fields is the position of
its end. -/
structure Problem where
  position : Nat
  error : DecodeError
  deriving DecidableEq, Repr

abbrev Checked (α : Type) := Except Problem α

namespace Checked

variable {α β : Type}

def ofExcept (position : Nat) : Except DecodeError α → Checked α
  | .ok a => .ok a
  | .error e => .error ⟨position, e⟩

def both : Checked α → Checked β → Checked (α × β)
  | .ok a, .ok b => .ok (a, b)
  | .error p, .ok _ => .error p
  | .ok _, .error p => .error p
  | .error p, .error q => .error (if q.position < p.position then q else p)

def toExcept : Checked α → Except DecodeError α
  | .ok a => .ok a
  | .error p => .error p.error

end Checked

def occurrences (name : String) (position : Nat) : List (String × Document) → List (Nat × Document)
  | [] => []
  | (key, value) :: fields =>
    if key = name then (position, value) :: occurrences name (position + 1) fields
    else occurrences name (position + 1) fields

/-- Reads a record with known fields, given by name or, in order, by position. -/
structure RecordDecoder (α : Type) where
  names : List String
  named : List (String × Document) → Checked α
  positional : List Document → Except DecodeError (α × List Document)

namespace RecordDecoder

variable {α β : Type}

def pure (a : α) : RecordDecoder α := ⟨[], fun _ => .ok a, fun items => .ok (a, items)⟩

def map (f : α → β) (r : RecordDecoder α) : RecordDecoder β :=
  ⟨r.names, fun fields => (r.named fields).map f,
    fun items => (r.positional items).map fun (a, rest) => (f a, rest)⟩

def seq (r : RecordDecoder (α → β)) (s : RecordDecoder α) : RecordDecoder β :=
  ⟨r.names ++ s.names,
    fun fields => (Checked.both (r.named fields) (s.named fields)).map fun (f, a) => f a,
    fun items => do
      let (f, rest) ← r.positional items
      let (a, rest) ← s.positional rest
      return (f a, rest)⟩

instance : Applicative RecordDecoder where
  pure := pure
  map := map
  seq r s := seq r (s ())

def field (name : String) (decode : Decoder α) (absent : Except DecodeError α) :
    RecordDecoder α where
  names := [name]
  named fields :=
    match occurrences name 0 fields with
    | [] => .ofExcept fields.length absent
    | [(position, value)] => .ofExcept position (decode value)
    | (position, value) :: (again, _) :: _ =>
      match decode value with
      | .ok _ => .error ⟨again, .duplicated name⟩
      | .error e => .error ⟨position, e⟩
  positional
    | [] => absent.map fun a => (a, [])
    | item :: rest => (decode item).map fun a => (a, rest)

def required (name : String) (decode : Decoder α) : RecordDecoder α :=
  field name decode (.error (.missing name))

def optional (name : String) (decode : Decoder α) : RecordDecoder (Option α) :=
  field name (Decode.nullable decode) (.ok none)

def defaulted (name : String) (decode : Decoder α) (default : α) : RecordDecoder α :=
  field name decode (.ok default)

def flag (name : String) : RecordDecoder Bool := defaulted name Decode.bool false

def skipOthers (names : List String) (position : Nat) : List (String × Document) → Checked Unit
  | [] => .ok ()
  | (key, value) :: fields =>
    if key ∈ names then skipOthers names (position + 1) fields
    else match value with
      | .flawed .key _ => .error ⟨position, .fault .malformed⟩
      | value => do
        Checked.ofExcept position (skip value)
        skipOthers names (position + 1) fields

def others (names : List String) (position : Nat) :
    List (String × Document) → Checked (List (String × Document))
  | [] => .ok []
  | (key, value) :: fields =>
    if key ∈ names then others names (position + 1) fields
    else do
      let value ← Checked.ofExcept position (content value)
      let rest ← others names (position + 1) fields
      return (key, value) :: rest

def closeList : List Document → Except DecodeError Unit
  | [] => .ok ()
  | [.broken .listEnded] => .error (.fault .listEnded)
  | _ => .error .surplus

def ofFields (r : RecordDecoder α) (fields : List (String × Document)) : Except DecodeError α :=
  (Checked.both (skipOthers r.names 0 fields) (r.named fields)).toExcept.map (·.2)

def byName (r : RecordDecoder α) : Decoder α
  | .record fields => r.ofFields fields
  | .plain "" _ => r.ofFields []
  | doc => Decode.refuse doc

def decode (r : RecordDecoder α) : Decoder α
  | .list items => do
    let (a, rest) ← r.positional items
    closeList rest
    return a
  | doc => r.byName doc

/-- A record whose other fields together make up a second value. -/
def withOthers (r : RecordDecoder α) (rest : List (String × Document) → Except DecodeError β) :
    Decoder (α × β)
  | .record fields => do
    let (a, others) ← (Checked.both (r.named fields) (others r.names 0 fields)).toExcept
    let b ← rest others
    return (a, b)
  | .plain "" _ => do
    let a ← (r.named []).toExcept
    let b ← rest []
    return (a, b)
  | doc => Decode.refuse doc

end RecordDecoder
end SchemaTrace.Document
