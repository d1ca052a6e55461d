/-!
Glob patterns. `*` stands for any run of bytes, `?` for one byte; `**` between slashes stands for
any number of directories; classes and alternatives in braces may be used, and a backslash takes
the next character literally.
-/
namespace SchemaTrace.Glob

inductive Token where
  | literal (c : Char)
  | anyByte
  | anyRun
  /-- `**` and a slash at the start: any leading directories, or none. -/
  | leadingDirectories
  /-- A slash and `**` at the end: everything below a directory. -/
  | everythingBelow
  /-- `**` between two slashes. -/
  | innerDirectories
  | oneOf (negated : Bool) (ranges : List (Char × Char))
  | alternatives (branches : List (List Token))

inductive Fault where
  | unclosedClass
  | invalidRange (first last : Char)
  | unclosedAlternatives
  | unopenedAlternatives
  | danglingEscape
  deriving DecidableEq, Repr

def Fault.message : Fault → String
  | .unclosedClass => "unclosed character class; missing ']'"
  | .invalidRange first last =>
    "invalid range; '" ++ String.singleton first ++ "' > '" ++ String.singleton last ++ "'"
  | .unclosedAlternatives =>
    "unclosed alternate group; missing '\x7d' (maybe escape '\x7b' with '[\x7b]'?)"
  | .unopenedAlternatives =>
    "unopened alternate group; missing '\x7b' (maybe escape '\x7d' with '[\x7d]'?)"
  | .danglingEscape => "dangling '\\'"

structure PatternError where
  pattern : String
  fault : Fault
  deriving DecidableEq, Repr

def PatternError.message (e : PatternError) : String :=
  "error parsing glob '" ++ e.pattern ++ "': " ++ e.fault.message

/-- Ranges of a class read so far, last first, and whether a hyphen waits for the end of a range. -/
structure ClassState where
  ranges : List (Char × Char)
  open_ : Bool

def ClassState.extend (s : ClassState) (c : Char) : Except Fault ClassState :=
  match s.ranges with
  | [] => .ok ⟨[(c, c)], false⟩
  | (first, _) :: rest =>
    if c < first then .error (.invalidRange first c) else .ok ⟨(first, c) :: rest, false⟩

def ClassState.close (s : ClassState) : List (Char × Char) :=
  (if s.open_ then ('-', '-') :: s.ranges else s.ranges).reverse

def readClass (s : ClassState) (first : Bool) (taken : Nat) :
    List Char → Except Fault (List (Char × Char) × Nat)
  | [] => .error .unclosedClass
  | c :: t =>
    if c = ']' && !first then .ok (s.close, taken + 1)
    else if c = '-' && !first && !s.open_ then readClass ⟨s.ranges, true⟩ false (taken + 1) t
    else if s.open_ then
      match s.extend c with
      | .ok s => readClass s false (taken + 1) t
      | .error fault => .error fault
    else readClass ⟨(c, c) :: s.ranges, false⟩ false (taken + 1) t

structure ReadState where
  /-- The tokens of the innermost branch, last first. -/
  branch : List Token
  /-- The finished branches of each group that is open, innermost first, and the tokens before the
  group, each last first. -/
  groups : List (List (List Token) × List Token)
  previous : Option Char

def ReadState.push (s : ReadState) (token : Token) (read : Char) : ReadState :=
  { s with branch := token :: s.branch, previous := some read }

/-- The token that two stars stand for between slashes, given the token before them. -/
def betweenSlashes (before : Token) (last : Bool) : Token :=
  match before with
  | .leadingDirectories => .leadingDirectories
  | .everythingBelow => .everythingBelow
  | _ => if last then .everythingBelow else .innerDirectories

/-- Reads two stars that are followed by `next`; tells how many characters after them belong to
the token. -/
def readStars (s : ReadState) (next : Option Char) : ReadState × Nat :=
  let twoRuns : ReadState × Nat := ((s.push .anyRun '*').push .anyRun '*', 0)
  match s.branch with
  | [] =>
    match next with
    | none => (s.push .leadingDirectories '*', 0)
    | some '/' => (s.push .leadingDirectories '/', 1)
    | _ => twoRuns
  | before :: earlier =>
    if s.previous ≠ some '/' then twoRuns
    else
      let inGroup := !s.groups.isEmpty
      match next with
      | none =>
        ({ s with branch := betweenSlashes before true :: earlier, previous := some '*' }, 0)
      | some '/' =>
        ({ s with branch := betweenSlashes before false :: earlier, previous := some '/' }, 1)
      | some c =>
        if inGroup && (c = ',' || c = '\x7d') then
          ({ s with branch := betweenSlashes before true :: earlier, previous := some '*' }, 0)
        else twoRuns

/-- Reads the rest of a pattern, of which the first `skip` characters are already taken. If `loose`
is set, a bracket that opens no class stands for itself. -/
def readTokens (loose : Bool) (s : ReadState) : (skip : Nat) → List Char → Except Fault (List Token)
  | _, [] => if s.groups.isEmpty then .ok s.branch.reverse else .error .unclosedAlternatives
  | skip + 1, _ :: t => readTokens loose s skip t
  | 0, c :: t =>
    match c with
    | '?' => readTokens loose (s.push .anyByte c) 0 t
    | '*' =>
      if t.head? = some '*' then
        let (s, more) := readStars s t.tail.head?
        readTokens loose s (1 + more) t
      else readTokens loose (s.push .anyRun c) 0 t
    | '[' =>
      let negated := t.head? = some '!' || t.head? = some '^'
      let marks := if negated then 1 else 0
      match readClass ⟨[], false⟩ true 0 (t.drop marks) with
      | .error fault =>
        if loose && fault = .unclosedClass then readTokens loose (s.push (.literal c) c) 0 t
        else .error fault
      | .ok (ranges, taken) =>
        readTokens loose (s.push (.oneOf negated ranges) ']') (marks + taken) t
    | '\x7b' => readTokens loose ⟨[], ([], s.branch) :: s.groups, some c⟩ 0 t
    | '\x7d' =>
      match s.groups with
      | [] => .error .unopenedAlternatives
      | (branches, before) :: groups =>
        let group := Token.alternatives ((s.branch.reverse :: branches).reverse)
        readTokens loose ⟨group :: before, groups, some c⟩ 0 t
    | ',' =>
      match s.groups with
      | [] => readTokens loose (s.push (.literal c) c) 0 t
      | (branches, before) :: groups =>
        readTokens loose ⟨[], (s.branch.reverse :: branches, before) :: groups, some c⟩ 0 t
    | '\\' =>
      match t with
      | [] => .error .danglingEscape
      | next :: _ => readTokens loose (s.push (.literal next) next) 1 t
    | c => readTokens loose (s.push (.literal c) c) 0 t

def parseWith (loose : Bool) (pattern : String) : Except PatternError (List Token) :=
  match readTokens loose ⟨[], [], none⟩ 0 pattern.toList with
  | .ok tokens => .ok tokens
  | .error fault => .error ⟨pattern, fault⟩

def parse (pattern : String) : Except PatternError (List Token) := parseWith false pattern

/-- Reads a pattern in which an unclosed class is no fault. -/
def parseLoose (pattern : String) : Except PatternError (List Token) := parseWith true pattern

end SchemaTrace.Glob
