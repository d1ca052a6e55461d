import SchemaTrace.Document.Basic
import SchemaTrace.Glob.Pattern
import SchemaTrace.Needle.Template
import SchemaTrace.Schema.Basic
/-!
What can go wrong, by cause, and the wording of each cause.
-/
namespace SchemaTrace

inductive LookupKind where
  | domain
  | member (kind : MemberKind)
  deriving DecidableEq, Repr

def LookupKind.name : LookupKind → String
  | .domain => "domain"
  | .member kind => kind.name

structure FetchError where
  what : String
  reason : String
  deriving DecidableEq, Repr

def FetchError.message (e : FetchError) : String := s!"failed to fetch {e.what}: {e.reason}"

inductive SchemaFault where
  | duplicateDomain (name : String)
  | duplicateMember (kind : MemberKind) (key : String)
  | unhandledType (tag domain : String)
  | noSources
  /-- A fault reported by whoever supplies the schema. -/
  | stated (description : String)
  deriving DecidableEq, Repr

def SchemaFault.message : SchemaFault → String
  | .duplicateDomain name => s!"duplicate domain {name}"
  | .duplicateMember kind key => s!"duplicate {kind.name} {key}"
  | .unhandledType tag domain => s!"unhandled type {Text.quoted tag} in domain {domain}"
  | .noSources => "no schema files given"
  | .stated description => description

inductive PatternFault where
  | template (fault : Template.Fault)
  | glob (error : Glob.PatternError)
  | noNeedles
  | unknownSubset (convention subset : String)
  | ruleWithoutNeedles (convention : String) (kind : MemberKind)
  deriving DecidableEq, Repr

def PatternFault.message : PatternFault → String
  | .template fault => fault.message
  | .glob error => error.message
  | .noNeedles => "no needles to match"
  | .unknownSubset convention subset =>
    s!"{convention} refers to unknown subset {Text.quoted subset}"
  | .ruleWithoutNeedles convention kind => s!"{convention} has a {kind.name} rule with no needles"

inductive Error where
  | notFound (kind : LookupKind) (name : String)
  | fetch (error : FetchError)
  | schema (fault : SchemaFault)
  | invalidRef (name : String)
  | json (error : Document.DecodeError)
  | pattern (fault : PatternFault)
  deriving DecidableEq, Repr

def Error.message : Error → String
  | .notFound kind name => s!"no {kind.name} named {name}"
  | .fetch error => error.message
  | .schema fault => "schema error: " ++ fault.message
  | .invalidRef name => "expected qualified ref, got " ++ name
  | .json error => "invalid protocol JSON: " ++ error.message
  | .pattern fault => "invalid pattern: " ++ fault.message

end SchemaTrace
