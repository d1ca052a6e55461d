import SchemaTrace.Text.Case
import SchemaTrace.Text.Quoted
/-!
Needle templates. A template names the identifiers an implementation uses for a member, with
placeholders for the domain and the member in several spellings.
-/
namespace SchemaTrace.Template

open Text

def uncapitalize : Text → Text
  | [] => []
  | c :: t => lowerChar c ++ t

def capitalize : Text → Text
  | [] => []
  | c :: t => upperChar c ++ t

def wireLiteral (domain member : Text) : Text :=
  '"' :: replace ['"'] ['\\', '"'] (domain ++ '.' :: member) ++ ['"']

inductive Placeholder where
  | domain
  | domainCamel
  | member
  | memberPascal
  | wire
  deriving DecidableEq, Repr

namespace Placeholder

def all : List Placeholder := [.domain, .domainCamel, .member, .memberPascal, .wire]

def name : Placeholder → Text
  | .domain => "domain".toList
  | .domainCamel => "domainCamel".toList
  | .member => "member".toList
  | .memberPascal => "memberPascal".toList
  | .wire => "wire".toList

def value (domain member : Text) : Placeholder → Text
  | .domain => domain
  | .domainCamel => uncapitalize domain
  | .member => member
  | .memberPascal => capitalize member
  | .wire => wireLiteral domain member

def written (p : Placeholder) : Text := '\x7b' :: p.name ++ ['\x7d']

end Placeholder

inductive Fault where
  | empty
  | unclosed (template : String)
  | unknownPlaceholder (name template : String)
  deriving DecidableEq, Repr

def Fault.message : Fault → String
  | .empty => "empty needle template"
  | .unclosed template => "unclosed placeholder in needle template " ++ quoted template
  | .unknownPlaceholder name template =>
    "unknown placeholder \x7b" ++ name ++ "\x7d in needle template " ++ quoted template

def checkPlaceholders (template : Text) : (skip : Nat) → Text → Except Fault Unit
  | _, [] => .ok ()
  | skip + 1, _ :: t => checkPlaceholders template skip t
  | 0, c :: t =>
    if c = '\x7b' then
      match splitFirst? '\x7d' t with
      | none => .error (.unclosed (String.ofList template))
      | some (name, _) =>
        if name ∈ Placeholder.all.map Placeholder.name then
          checkPlaceholders template (name.length + 1) t
        else .error (.unknownPlaceholder (String.ofList name) (String.ofList template))
    else checkPlaceholders template 0 t

def check (template : Text) : Except Fault Unit := do
  checkPlaceholders template 0 template
  if template.isEmpty then throw .empty

/-- The order in which the placeholders are replaced. -/
def expansionOrder : List Placeholder := [.domainCamel, .memberPascal, .domain, .member, .wire]

/-- The needle for one member: each placeholder in turn is replaced by its value. -/
def expand (template domain member : Text) : Text :=
  expansionOrder.foldl (fun t p => replace p.written (p.value domain member) t) template

end SchemaTrace.Template
