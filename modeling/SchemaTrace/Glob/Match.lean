import SchemaTrace.Glob.Pattern
/-!
Matching whole paths, byte by byte. What a token matches is given by the places where a match
that starts at one place may end; a place is what remains of the path.
-/
namespace SchemaTrace.Glob

abbrev Bytes := List UInt8

def utf8 (c : Char) : Bytes := (String.singleton c).toUTF8.toList

/-- Each place once; the places of one path differ in length. -/
def distinct (places : List Bytes) : List Bytes :=
  places.foldr (fun place rest =>
    if rest.any fun other => other.length = place.length then rest else place :: rest) []

def oneByte (allowed : UInt8 → Bool) : Bytes → List Bytes
  | [] => []
  | b :: rest => if allowed b then [rest] else []

def runOf (allowed : UInt8 → Bool) : Bytes → List Bytes
  | [] => [[]]
  | b :: rest => (b :: rest) :: if allowed b then runOf allowed rest else []

def literalBytes (bytes path : Bytes) : List Bytes :=
  if bytes.isPrefixOf path then [path.drop bytes.length] else []

def slash : UInt8 := 47

def afterSlashes : Bytes → List Bytes
  | [] => []
  | b :: rest => if b = slash then rest :: afterSlashes rest else afterSlashes rest

/-- The byte ranges of a class: a character of several bytes stands for each of them, and a range
reaches from the last byte of its start to the first byte of its end. -/
def classRanges (ranges : List (Char × Char)) : List (UInt8 × UInt8) :=
  ranges.flatMap fun (first, last) =>
    if first = last then (utf8 first).map fun b => (b, b)
    else
      let start := utf8 first
      let stop := utf8 last
      start.dropLast.map (fun b => (b, b)) ++
        [(start.getLastD 0, stop.headD 0)] ++ stop.tail.map fun b => (b, b)

def inClass (negated : Bool) (ranges : List (Char × Char)) (b : UInt8) : Bool :=
  (classRanges ranges).any (fun (low, high) => low ≤ b && b ≤ high) != negated

mutual

/-- Whether a token adds nothing to a pattern: a group all of whose branches are empty. -/
def isVoid : Token → Bool
  | .alternatives branches => allBranchesVoid branches
  | _ => false

def allVoid : List Token → Bool
  | [] => true
  | token :: rest => isVoid token && allVoid rest

def allBranchesVoid : List (List Token) → Bool
  | [] => true
  | branch :: rest => allVoid branch && allBranchesVoid rest

end

mutual

/-- Where a match of one token may end. `wild` tells which bytes a star may stand for. -/
def tokenEnds (wild : UInt8 → Bool) : Token → Bytes → List Bytes
  | .literal c, path => literalBytes (utf8 c) path
  | .anyByte, path => oneByte wild path
  | .anyRun, path => runOf wild path
  | .leadingDirectories, path => path :: afterSlashes path
  | .everythingBelow, path => (literalBytes [slash] path).flatMap (runOf fun _ => true)
  | .innerDirectories, path =>
    (literalBytes [slash] path).flatMap fun rest => rest :: afterSlashes rest
  | .oneOf negated ranges, path => oneByte (inClass negated ranges) path
  | .alternatives branches, path =>
    if allBranchesVoid branches then [path] else branchEnds wild branches path

def tokensEnds (wild : UInt8 → Bool) : List Token → List Bytes → List Bytes
  | [], places => places
  | token :: rest, places =>
    tokensEnds wild rest (distinct (places.flatMap fun place => tokenEnds wild token place))

def branchEnds (wild : UInt8 → Bool) : List (List Token) → Bytes → List Bytes
  | [], _ => []
  | branch :: rest, path =>
    (if allVoid branch then [] else tokensEnds wild branch [path]) ++ branchEnds wild rest path

end

/-- Whether a pattern matches a whole path. A pattern that is only `**` matches every path. -/
def matchesWith (wild : UInt8 → Bool) (tokens : List Token) (path : String) : Bool :=
  match tokens with
  | [.leadingDirectories] => true
  | tokens => (tokensEnds wild tokens [path.toUTF8.toList]).any List.isEmpty

def isMatch (tokens : List Token) (path : String) : Bool := matchesWith (fun _ => true) tokens path

def isPathMatch (tokens : List Token) (path : String) : Bool :=
  matchesWith (· ≠ slash) tokens path

end SchemaTrace.Glob
