import SchemaTrace.Json.Reader
import SchemaTrace.Text.Basic
/-!
Scalars in YAML text, unquoted and quoted. A scalar may go on over several lines: one line break
within it stands for a blank, and each further one for itself.
-/
namespace SchemaTrace.Yaml

structure Place where
  rest : Text
  /-- Characters before the place on its line. -/
  column : Nat
  /-- Whether a mapping or a list in lines may begin here: on its line there is nothing before but
  blanks and marks of list items. -/
  fresh : Bool

def isBreak (c : Char) : Bool :=
  c = '\n' || c = '\r' || c = '\u0085' || c = '\u2028' || c = '\u2029'

def isSpaced : Text → Bool
  | [] => true
  | c :: _ => Text.isBlank c || isBreak c

def isDocumentMark : (column : Nat) → Text → Bool
  | 0, '-' :: '-' :: '-' :: t => isSpaced t
  | 0, '.' :: '.' :: '.' :: t => isSpaced t
  | _, _ => false

inductive Gap where
  | nothing
  /-- Blanks within a line, last first. -/
  | blanks (read : Text)
  /-- Line breaks; `joined` if the first of them is escaped. -/
  | breaks (count : Nat) (joined : Bool)

namespace Gap

def addBlank (c : Char) : Gap → Gap
  | .nothing => .blanks [c]
  | .blanks read => .blanks (c :: read)
  | gap => gap

def addBreak : Gap → Gap
  | .breaks count joined => .breaks (count + 1) joined
  | _ => .breaks 1 false

def content : Gap → Text
  | .nothing => []
  | .blanks read => read
  | .breaks count true => List.replicate count '\n'
  | .breaks 1 false => [' ']
  | .breaks count false => List.replicate (count - 1) '\n'

def isBroken : Gap → Bool
  | .breaks .. => true
  | _ => false

end Gap

def isWholeBreak (c : Char) (t : Text) : Bool := isBreak c && !(c = '\r' && t.head? = some '\n')

structure Scalar where
  content : String
  /-- Whether it stands on one line, so that it may be a key. -/
  oneLine : Bool
  next : Place

def isFlowMark (c : Char) : Bool := c = ',' || c = '[' || c = ']' || c = '\x7b' || c = '\x7d'

def endsPlain (flow : Bool) (floor : Nat) (gap : Gap) (column : Nat) (c : Char) (t : Text) : Bool :=
  (c = ':' && isSpaced t) || (flow && isFlowMark c) ||
    match gap with
    | .nothing => false
    | .blanks _ => c = '#'
    | .breaks .. => c = '#' || (!flow && column < floor) || isDocumentMark column (c :: t)

def breaksPlain (flow : Bool) (floor : Nat) (gap : Gap) (column : Nat) (c : Char) (t : Text) :
    Bool :=
  (flow && c = ':' && (t.head?.any fun d => d = '?' || isFlowMark d)) ||
    (c = '\t' && gap.isBroken && column < floor)

/-- Reads an unquoted scalar whose lines after the first start at column `floor` or behind it. -/
def readPlain (flow : Bool) (floor : Nat) (read : Text) (gap : Gap) (oneLine : Bool)
    (column : Nat) : Text → Option Scalar
  | [] => some ⟨String.ofList read.reverse, oneLine, ⟨[], column, gap.isBroken⟩⟩
  | c :: t =>
    if breaksPlain flow floor gap column c t then none
    else if Text.isBlank c then readPlain flow floor read (gap.addBlank c) oneLine (column + 1) t
    else if isBreak c then
      let gap := if isWholeBreak c t then gap.addBreak else gap
      readPlain flow floor read gap oneLine 0 t
    else if endsPlain flow floor gap column c t then
      some ⟨String.ofList read.reverse, oneLine, ⟨c :: t, column, gap.isBroken⟩⟩
    else
      readPlain flow floor (c :: gap.content ++ read) .nothing (oneLine && !gap.isBroken)
        (column + 1) t

/-- Reads a scalar in single quotes, the first of which is passed; `skip` counts characters that
are taken care of. -/
def readSingle (read : Text) (gap : Gap) (oneLine : Bool) (column : Nat) :
    (skip : Nat) → Text → Option Scalar
  | _, [] => none
  | skip + 1, _ :: t => readSingle read gap oneLine (column + 1) skip t
  | 0, c :: t =>
    if Text.isBlank c then readSingle read (gap.addBlank c) oneLine (column + 1) 0 t
    else if isBreak c then
      readSingle read (if isWholeBreak c t then gap.addBreak else gap) false 0 0 t
    else if isDocumentMark column (c :: t) then none
    else if c = '\'' then
      if t.head? = some '\'' then
        readSingle (c :: gap.content ++ read) .nothing oneLine (column + 1) 1 t
      else
        some ⟨String.ofList (gap.content ++ read).reverse, oneLine, ⟨t, column + 1, false⟩⟩
    else readSingle (c :: gap.content ++ read) .nothing oneLine (column + 1) 0 t

def simpleEscape? : Char → Option Char
  | '0' => some '\x00'
  | 'a' => some '\x07'
  | 'b' => some '\x08'
  | 't' | '\t' => some '\t'
  | 'n' => some '\n'
  | 'v' => some '\x0b'
  | 'f' => some '\x0c'
  | 'r' => some '\r'
  | 'e' => some '\x1b'
  | ' ' => some ' '
  | '"' => some '"'
  | '/' => some '/'
  | '\\' => some '\\'
  | 'N' => some '\u0085'
  | '_' => some '\u00a0'
  | 'L' => some '\u2028'
  | 'P' => some '\u2029'
  | _ => none

def escapeDigits? : Char → Option Nat
  | 'x' => some 2
  | 'u' => some 4
  | 'U' => some 8
  | _ => none

def hexNumber? (digits : Text) : Option Nat :=
  digits.foldl (fun total c => do return (← total) * 16 + (← Json.hexValue? c)) (some 0)

def numberedChar? (count : Nat) (t : Text) : Option Char := do
  let digits := t.take count
  if digits.length < count then none
  let n ← hexNumber? digits
  if h : n.isValidChar then some (Char.ofNatAux n h) else none

def escape? : Text → Option (Char × Nat)
  | [] => none
  | c :: t =>
    match escapeDigits? c with
    | some count => (numberedChar? count t).map fun d => (d, count + 1)
    | none => (simpleEscape? c).map fun d => (d, 1)

def readDouble (read : Text) (gap : Gap) (oneLine : Bool) (column : Nat) :
    (skip : Nat) → Text → Option Scalar
  | _, [] => none
  | skip + 1, _ :: t => readDouble read gap oneLine (column + 1) skip t
  | 0, c :: t =>
    if Text.isBlank c then readDouble read (gap.addBlank c) oneLine (column + 1) 0 t
    else if isBreak c then
      readDouble read (if isWholeBreak c t then gap.addBreak else gap) false 0 0 t
    else if isDocumentMark column (c :: t) then none
    else
      let read := gap.content ++ read
      if c = '"' then some ⟨String.ofList read.reverse, oneLine, ⟨t, column + 1, false⟩⟩
      else if c = '\\' then
        match t with
        | d :: rest =>
          if isBreak d then
            let width := if isWholeBreak d rest then 1 else 2
            readDouble read (.breaks 0 true) false 0 width t
          else
            match escape? t with
            | some (image, width) =>
              readDouble (image :: read) .nothing oneLine (column + 1) width t
            | none => none
        | [] => none
      else readDouble (c :: read) .nothing oneLine (column + 1) 0 t

end SchemaTrace.Yaml
