import SchemaTrace.Document.Decode
import SchemaTrace.Json.Number
/-!
Reading JSON text. The reader always gives a document; where the text breaks off, the document
holds the fault at that place. Values nested too deeply, numbers too large and lone surrogates
can be skipped but not read.
-/
namespace SchemaTrace.Json

def maxNesting : Nat := 127

def isSpace (c : Char) : Bool := c = ' ' || c = '\n' || c = '\t' || c = '\r'

def dropSpace (t : Text) : Text := t.dropWhile isSpace

/-- A value read from a text and what follows it, unless the text breaks off within the value. -/
structure Reading where
  document : Document
  rest : Option Text

def Reading.stop (fault : Fault) : Reading := ⟨.broken fault, none⟩

/-- A string read from a text; `flawed` if it holds a lone surrogate. -/
structure StringReading where
  content : Text
  flawed : Bool
  rest : Except Fault Text

def hexValue? (c : Char) : Option Nat :=
  if '0' ≤ c && c ≤ '9' then some (c.toNat - '0'.toNat)
  else if 'a' ≤ c && c ≤ 'f' then some (c.toNat - 'a'.toNat + 10)
  else if 'A' ≤ c && c ≤ 'F' then some (c.toNat - 'A'.toNat + 10)
  else none

def hexQuad? (a b c d : Char) : Option Nat := do
  let a ← hexValue? a
  let b ← hexValue? b
  let c ← hexValue? c
  let d ← hexValue? d
  return ((a * 16 + b) * 16 + c) * 16 + d

def unicodeEscape? : Text → Option Nat
  | a :: b :: c :: d :: _ => hexQuad? a b c d
  | _ => none

def simpleEscape? : Char → Option Char
  | '"' => some '"'
  | '\\' => some '\\'
  | '/' => some '/'
  | 'b' => some '\x08'
  | 'f' => some '\x0c'
  | 'n' => some '\n'
  | 'r' => some '\r'
  | 't' => some '\t'
  | _ => none

def isLeading (n : Nat) : Bool := 0xD800 ≤ n && n ≤ 0xDBFF

def isTrailing (n : Nat) : Bool := 0xDC00 ≤ n && n ≤ 0xDFFF

def surrogatePair (lead trail : Nat) : Char :=
  Char.ofNat (0x10000 + (lead - 0xD800) * 0x400 + (trail - 0xDC00))

def trailingEscape? : Text → Option Nat
  | '\\' :: 'u' :: t => (unicodeEscape? t).filter isTrailing
  | _ => none

def endsWithinPair : Text → Bool
  | [] => true
  | ['\\'] => true
  | '\\' :: 'u' :: hex => Text.byteLength hex < 4
  | _ => false

/-- Reads a string whose opening quote is passed; `read` holds its characters, last first, and
`skip` counts characters of an escape that is already taken care of. -/
def readString (read : Text) (flawed : Bool) : (skip : Nat) → Text → StringReading
  | _, [] => ⟨read.reverse, flawed, .error .ended⟩
  | skip + 1, _ :: t => readString read flawed skip t
  | 0, '"' :: t => ⟨read.reverse, flawed, .ok t⟩
  | 0, '\\' :: t =>
    match t with
    | [] => ⟨read.reverse, flawed, .error .ended⟩
    | 'u' :: hex =>
      match unicodeEscape? hex with
      | none =>
        ⟨read.reverse, flawed, .error (if Text.byteLength hex < 4 then .ended else .malformed)⟩
      | some n =>
        if isLeading n then
          match trailingEscape? (hex.drop 4) with
          | some m => readString (surrogatePair n m :: read) flawed 11 t
          | none => readString read (flawed || !endsWithinPair (hex.drop 4)) 5 t
        else if isTrailing n then readString read true 5 t
        else readString (Char.ofNat n :: read) flawed 5 t
    | c :: _ =>
      match simpleEscape? c with
      | some image => readString (image :: read) flawed 1 t
      | none => ⟨read.reverse, flawed, .error .malformed⟩
  | 0, c :: t =>
    if c.toNat < 32 then ⟨read.reverse, flawed, .error .malformed⟩
    else readString (c :: read) flawed 0 t

def StringReading.reading (s : StringReading) : Reading :=
  let document := match s.rest with
    | .ok _ => Document.text (String.ofList s.content)
    | .error fault => .broken fault
  ⟨if s.flawed then .flawed .value document else document, s.rest.toOption⟩

def readWord (value : Document) : (word t : Text) → Reading
  | [], t => ⟨value, some t⟩
  | _ :: _, [] => .stop .ended
  | w :: word, c :: t => if w = c then readWord value word t else .stop .malformed

def atNesting (nesting : Nat) (r : Reading) : Reading :=
  if nesting < maxNesting then r else ⟨.flawed .value r.document, r.rest⟩

mutual

def readValue (nesting : Nat) : (fuel : Nat) → Text → Reading
  | 0, _ => .stop .malformed
  | fuel + 1, t =>
    match dropSpace t with
    | [] => .stop .ended
    | 'n' :: t => readWord .null ['u', 'l', 'l'] t
    | 't' :: t => readWord (.bool true) ['r', 'u', 'e'] t
    | 'f' :: t => readWord (.bool false) ['a', 'l', 's', 'e'] t
    | '"' :: t => (readString [] false 0 t).reading
    | '[' :: t =>
      let (items, rest) := readItems (nesting + 1) true fuel t
      atNesting nesting ⟨.list items, rest⟩
    | '\x7b' :: t =>
      let (fields, rest) := readFields (nesting + 1) true fuel t
      atNesting nesting ⟨.record fields, rest⟩
    | c :: t =>
      if c = '-' || c.isDigit then
        match readParts (c :: t) with
        | .ok (parts, rest) => ⟨parts.document, some rest⟩
        | .error fault => .stop fault
      else .stop .malformed

def readItems (nesting : Nat) (first : Bool) : (fuel : Nat) → Text → List Document × Option Text
  | 0, _ => ([.broken .malformed], none)
  | fuel + 1, t =>
    let element (t : Text) : List Document × Option Text :=
      match readValue nesting fuel t with
      | ⟨item, none⟩ => ([item], none)
      | ⟨item, some rest⟩ =>
        let (items, rest) := readItems nesting false fuel rest
        (item :: items, rest)
    match dropSpace t with
    | [] => ([.broken .listEnded], none)
    | ']' :: rest => ([], some rest)
    | ',' :: rest =>
      if first then ([.broken .malformed], none)
      else match dropSpace rest with
        | ']' :: _ => ([.broken .malformed], none)
        | rest => element rest
    | rest => if first then element rest else ([.broken .malformed], none)

def readFields (nesting : Nat) (first : Bool) :
    (fuel : Nat) → Text → List (String × Document) × Option Text
  | 0, _ => ([("", .broken .malformed)], none)
  | fuel + 1, t =>
    let entry (t : Text) : List (String × Document) × Option Text :=
      let key := readString [] false 0 t
      let name := if key.flawed then "" else String.ofList key.content
      let mark (doc : Document) : Document := if key.flawed then .flawed .key doc else doc
      match key.rest with
      | .error fault => ([("", mark (.broken fault))], none)
      | .ok rest =>
        match dropSpace rest with
        | [] => ([(name, mark (.broken .ended))], none)
        | ':' :: rest =>
          match readValue nesting fuel rest with
          | ⟨value, none⟩ => ([(name, mark value)], none)
          | ⟨value, some rest⟩ =>
            let (fields, rest) := readFields nesting false fuel rest
            ((name, mark value) :: fields, rest)
        | _ => ([(name, mark (.broken .malformed))], none)
    match dropSpace t with
    | [] => ([("", .broken .ended)], none)
    | '\x7d' :: rest => ([], some rest)
    | ',' :: rest =>
      if first then ([("", .broken .malformed)], none)
      else match dropSpace rest with
        | [] => ([("", .broken .ended)], none)
        | '"' :: rest => entry rest
        | _ => ([("", .broken .malformed)], none)
    | '"' :: rest => if first then entry rest else ([("", .broken .malformed)], none)
    | _ => ([("", .broken .malformed)], none)

end

def read (t : Text) : Reading := readValue 0 (2 * t.length + 2) t

/-- In a text, an element behind the last field stands where the list should end. -/
def inText : Document.DecodeError → Document.DecodeError
  | .surplus => .fault .malformed
  | e => e

def decodeText {α : Type} (decode : Document.Decoder α) (source : String) :
    Except Document.DecodeError α := do
  let reading := read source.toList
  let value ← (decode reading.document).mapError inText
  match reading.rest with
  | some rest => if (dropSpace rest).isEmpty then return value else throw (.fault .malformed)
  | none => throw (.fault .malformed)

end SchemaTrace.Json
