import SchemaTrace.Text.Basic
/-!
Paths of files, as texts separated by slashes. A path that starts with a slash is absolute.
-/
namespace SchemaTrace.Path

def isAbsolute (path : String) : Bool := Text.startsWith ['/'] path.toList

def endsWithSlash (path : String) : Bool := Text.startsWith ['/'] path.toList.reverse

/-- A path seen from a directory; joining the empty path marks the directory by a slash. -/
def join (directory path : String) : String :=
  if directory.isEmpty || isAbsolute path then path
  else if endsWithSlash directory then directory ++ path
  else directory ++ "/" ++ path

def names (path : String) : List String :=
  ((Text.splitAll '/' path.toList).filter fun name => !name.isEmpty).map String.ofList

def steps (path : String) : List String :=
  names path ++ if endsWithSlash path then ["."] else []

def ofNames (names : List String) : String :=
  if names.isEmpty then "/" else String.join (names.map ("/" ++ ·))

/-- Drops slashes, and dots behind slashes, from the end of a reversed path. -/
def dropMarks : Text → Text
  | '/' :: c :: t => dropMarks (c :: t)
  | '.' :: '/' :: t => dropMarks ('/' :: t)
  | t => t

def parent? (path : String) : Option String :=
  match dropMarks path.toList.reverse with
  | [] => none
  | ['/'] => none
  | t => some (String.ofList (dropMarks (t.dropWhile (· ≠ '/'))).reverse)

def absolute (directory path : String) : String :=
  let kept := (names path).filter (· ≠ ".")
  let full := kept.foldl join (if isAbsolute path then "/" else directory)
  if endsWithSlash path then join full "" else full

end SchemaTrace.Path
