import SchemaTrace.Configuration.File
/-!
Failures as they are reported to a user: an outermost message, and the causes below it.
-/
namespace SchemaTrace

inductive Cause where
  | stated (message : String)
  /-- The text of a document is at fault. -/
  | document (error : Document.DecodeError)
  deriving DecidableEq, Repr

def Cause.message : Cause → String
  | .stated message => message
  | .document error => error.message

inductive Failure where
  | configuration (error : ConfigurationError)
  | configurationFault (fault : ConfigurationFault)
  | protocol (error : FetchError)
  | extraction (id : String) (error : Error)
  | filtering (id : String) (error : Error)
  | unreadable (path : String) (error : FetchError)
  | unwritable (path : String) (error : FileError)
  | nothingScanned
  deriving DecidableEq, Repr

namespace ConfigurationError

def causes (e : ConfigurationError) : List Cause := e.cause?.toList.map fun e => .stated e.message

end ConfigurationError

namespace ConfigurationFault

def message : ConfigurationFault → String
  | .unreadable path _ => s!"Failed to read config file: {path}"
  | .malformed _ => "Failed to parse config YAML"
  | .invalid error => error.message
  | .within path _ => s!"Invalid config file: {path}"

def causes : ConfigurationFault → List Cause
  | .unreadable _ error => [.stated error.message]
  | .malformed error => [.document error]
  | .invalid error => error.causes
  | .within _ fault => .stated fault.message :: fault.causes

end ConfigurationFault

namespace Failure

def message : Failure → String
  | .configuration error => error.message
  | .configurationFault fault => fault.message
  | .protocol _ => "Failed to load protocol schema"
  | .extraction id _ => s!"Failed to extract references for '{id}'"
  | .filtering id _ => s!"Failed to filter protocol for '{id}'"
  | .unreadable path _ => s!"Failed to read {path}"
  | .unwritable path _ => s!"Failed to write {path}"
  | .nothingScanned =>
    "No implementation could be scanned - pass --checkout ID=DIR or set `checkout` in " ++
      Configuration.defaultPath

def causes : Failure → List Cause
  | .configuration error => error.causes
  | .configurationFault fault => fault.causes
  | .protocol error => [.stated error.message]
  | .extraction _ error => [.stated error.message]
  | .filtering _ error => [.stated error.message]
  | .unreadable _ error => [.stated error.message]
  | .unwritable _ error => [.stated error.message]
  | .nothingScanned => []

/-- The lines of a text, the first behind `first` and each other one behind `others`; empty lines
stay empty. -/
def indented (first others : String) (text : String) : String :=
  let lead (lead : String) (line : Text) : String :=
    if line.isEmpty then "" else lead ++ String.ofList line
  match Text.splitLines text.toList with
  | [] => ""
  | line :: rest => "\n".intercalate (lead first line :: rest.map (lead others))

def numbered (causes : List String) : List String :=
  causes.zipIdx.map fun (cause, n) =>
    let number := toString n
    let first := String.ofList (List.replicate (4 - number.length) ' ') ++ number ++ ": "
    indented first "      " cause

/-- A message with the causes below it; several causes are numbered. -/
def layout (message : String) (causes : List String) : String :=
  let below := match causes with
    | [] => ""
    | [cause] => "\n\nCaused by:\n" ++ indented "    " "    " cause
    | causes => "\n\nCaused by:\n" ++ "\n".intercalate (numbered causes)
  "Error: " ++ message ++ below

def report (f : Failure) : String := layout f.message (f.causes.map Cause.message)

end Failure
end SchemaTrace
