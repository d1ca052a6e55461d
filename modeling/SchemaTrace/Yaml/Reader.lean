import SchemaTrace.Document.Decode
import SchemaTrace.Yaml.Scalar
import SchemaTrace.Yaml.Value
/-!
Reading YAML text: mappings and lists in lines or in brackets, unquoted and quoted scalars, and
comments. Anchors, tags, block scalars and explicit keys are not read.
-/
namespace SchemaTrace.Yaml

/-- Passes over blanks, comments and line breaks. A tab does not count as a blank where lines are
indented. -/
def skipFrom (flow comment : Bool) (column : Nat) (fresh : Bool) : Text → Place
  | [] => ⟨[], column, fresh⟩
  | c :: t =>
    if isBreak c then skipFrom flow false 0 (fresh || !flow) t
    else if comment then skipFrom flow true (column + 1) fresh t
    else if c = ' ' || (c = '\t' && (flow || !fresh)) then
      skipFrom flow false (column + 1) fresh t
    else if c = '#' then skipFrom flow true (column + 1) fresh t
    else ⟨c :: t, column, fresh⟩

def Place.skip (p : Place) : Place := skipFrom false false p.column p.fresh p.rest

def Place.skipFlow (p : Place) : Place := skipFrom true false p.column false p.rest

def Place.after (p : Place) (count : Nat) (fresh : Bool) : Place :=
  ⟨p.rest.drop count, p.column + count, fresh⟩

def Place.isEnd (p : Place) : Bool := p.rest.isEmpty || isDocumentMark p.column p.rest

def Place.atItem (p : Place) : Bool :=
  match p.rest with
  | '-' :: t => isSpaced t
  | _ => false

def Place.atColon (p : Place) : Bool :=
  match p.rest with
  | ':' :: t => isSpaced t
  | _ => false

def indicators : List Char := "-?:,[]\x7b\x7d#&*!|>'\"%@\x60".toList

def startsPlain (flow : Bool) : Text → Bool
  | [] => false
  | c :: t =>
    if c = '-' then !isSpaced t
    else if c = '?' || c = ':' then !flow && !isSpaced t
    else !(c ∈ indicators) && !isSpaced (c :: t)

def readScalar (flow : Bool) (floor : Nat) (p : Place) : Option (Document × Scalar) :=
  match p.rest with
  | '\'' :: t => (readSingle [] .nothing true (p.column + 1) 0 t).map fun s => (.text s.content, s)
  | '"' :: t => (readDouble [] .nothing true (p.column + 1) 0 t).map fun s => (.text s.content, s)
  | t =>
    if startsPlain flow t then
      (readPlain flow floor [] .nothing true p.column t).map fun s => (plain s.content, s)
    else none

def keyText? : Document → Option String
  | .text s => some s
  | .plain source _ => some source
  | _ => none

mutual

def readFlow : (fuel : Nat) → Place → Option (Document × Place)
  | 0, _ => none
  | fuel + 1, p =>
    match p.rest with
    | '[' :: _ => do
      let (items, p) ← readFlowItems fuel (p.after 1 false)
      return (.list items, p)
    | '\x7b' :: _ => do
      let (fields, p) ← readFlowFields fuel (p.after 1 false)
      return (.record fields, p)
    | _ => do
      let (document, scalar) ← readScalar true 0 p
      return (document, scalar.next)

def readFlowValue : (fuel : Nat) → Place → Option (Document × Place)
  | 0, _ => none
  | fuel + 1, p =>
    let p := p.skipFlow
    match p.rest with
    | [] => none
    | c :: _ => if c = ',' || c = ']' || c = '\x7d' then some (absent, p) else readFlow fuel p

/-- Reads the rest of a list in brackets; a key with a value is an element of its own. -/
def readFlowItems : (fuel : Nat) → Place → Option (List Document × Place)
  | 0, _ => none
  | fuel + 1, p =>
    let p := p.skipFlow
    match p.rest with
    | ']' :: _ => some ([], p.after 1 false)
    | _ => do
      let (item, p) ← readFlow fuel p
      let p := p.skipFlow
      let (item, p) ← match p.rest with
        | ':' :: _ => do
          let key ← keyText? item
          let (value, p) ← readFlowValue fuel (p.after 1 false)
          some (Document.record [(key, value)], p.skipFlow)
        | _ => some (item, p)
      match p.rest with
      | ']' :: _ => return ([item], p.after 1 false)
      | ',' :: _ =>
        let (items, p) ← readFlowItems fuel (p.after 1 false)
        return (item :: items, p)
      | _ => none

def readFlowFields : (fuel : Nat) → Place → Option (List (String × Document) × Place)
  | 0, _ => none
  | fuel + 1, p =>
    let p := p.skipFlow
    match p.rest with
    | '\x7d' :: _ => some ([], p.after 1 false)
    | _ => do
      let (key, p) ← readFlow fuel p
      let key ← keyText? key
      let p := p.skipFlow
      let (value, p) ← match p.rest with
        | ':' :: _ => do
          let (value, p) ← readFlowValue fuel (p.after 1 false)
          some (value, p.skipFlow)
        | _ => some (absent, p)
      match p.rest with
      | '\x7d' :: _ => return ([(key, value)], p.after 1 false)
      | ',' :: _ =>
        let (fields, p) ← readFlowFields fuel (p.after 1 false)
        return ((key, value) :: fields, p)
      | _ => none

end

def readKey (p : Place) : Option (String × Place) :=
  if p.atColon then some ("", p.after 1 false)
  else do
    let (document, scalar) ← readScalar false (p.column + 1) p
    let key ← keyText? document
    let next := scalar.next
    if scalar.oneLine && !next.fresh then
      let blanks := (next.rest.takeWhile Text.isBlank).length
      let next := next.after blanks false
      if next.atColon then some (key, next.after 1 false) else none
    else none

mutual

/-- Reads a value in lines whose first character stands at column `floor` or behind it; the items
of a list may stand one column before if `outdented` is set. -/
def readBlock (floor : Nat) (outdented : Bool) : (fuel : Nat) → Place →
    Option (Document × Place)
  | 0, _ => none
  | fuel + 1, p =>
    if p.isEnd then some (absent, p)
    else if p.atItem && p.fresh && (floor ≤ p.column || (outdented && p.column + 1 = floor)) then do
      let (items, next) ← readBlockItems p.column fuel p
      return (.list items, next)
    else if p.column < floor then some (absent, p)
    else
      match p.rest with
      | '[' :: _ => readFlow fuel p
      | '\x7b' :: _ => readFlow fuel p
      | _ =>
        match readKey p with
        | some _ =>
          if p.fresh then do
            let (fields, next) ← readBlockFields p.column fuel p
            return (.record fields, next)
          else none
        | none => do
          let (document, scalar) ← readScalar false floor p
          return (document, scalar.next)

def readBlockItems (column : Nat) : (fuel : Nat) → Place → Option (List Document × Place)
  | 0, _ => none
  | fuel + 1, p => do
    let (item, p) ← readBlock (column + 1) false fuel (p.after 1 true).skip
    let p := p.skip
    if p.isEnd || p.column < column then return ([item], p)
    else if column < p.column then none
    else if p.atItem then
      let (items, p) ← readBlockItems column fuel p
      return (item :: items, p)
    else return ([item], p)

def readBlockFields (column : Nat) :
    (fuel : Nat) → Place → Option (List (String × Document) × Place)
  | 0, _ => none
  | fuel + 1, p => do
    let (key, p) ← readKey p
    let (value, p) ← readBlock (column + 1) true fuel p.skip
    let p := p.skip
    if p.isEnd || p.column < column then return ([(key, value)], p)
    else if column < p.column then none
    else
      let (fields, p) ← readBlockFields column fuel p
      return ((key, value) :: fields, p)

end

def isAllowed (c : Char) : Bool :=
  let n := c.toNat
  n = 9 || n = 10 || n = 13 || (32 ≤ n && n ≤ 126) || n = 0x85 || (0xA0 ≤ n && n ≤ 0xFFFD) ||
    0x10000 ≤ n

def readContent (t : Text) : Option Document := do
  let fuel := 4 * t.length + 4
  let p := Place.skip ⟨t, 0, true⟩
  let p := if isDocumentMark p.column p.rest && p.rest.head? = some '-' then
    (p.after 3 false).skip else p
  let (document, p) ← readBlock 0 false fuel p
  let p := p.skip
  if p.rest.isEmpty then some document
  else if isDocumentMark p.column p.rest && p.rest.head? = some '.' then
    if (p.after 3 false).skip.rest.isEmpty then some document else none
  else none

def read (source : String) : Document :=
  let t := match source.toList with
    | '\ufeff' :: t => t
    | t => t
  if t.all isAllowed then (readContent t).getD (.broken .malformed) else .broken .malformed

end SchemaTrace.Yaml
