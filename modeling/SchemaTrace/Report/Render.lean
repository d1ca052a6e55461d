import SchemaTrace.Comment.Index
import SchemaTrace.Coverage
import SchemaTrace.Decimal.Fixed
import SchemaTrace.Json.Printer
import SchemaTrace.Reference.Document
import SchemaTrace.Report.Style
import SchemaTrace.Text.Lines
/-!
Reports on coverage, references and comments, as coloured text or as JSON.
-/
namespace SchemaTrace.Report

open Style

inductive Format where
  | text
  | json
  deriving DecidableEq, Repr

def json (doc : Document) : String := Json.pretty doc ++ "\n"

def coloredPercent (percent : Float) : String :=
  let shown := Decimal.oneDecimalPlace percent ++ "%"
  if percent ≥ 80.0 then green shown else if percent ≥ 50.0 then yellow shown else red shown

def ratio (part whole : Nat) : String := s!"{part}/{whole}"

def coverageText (c : Coverage) : String :=
  "\n" ++ bold "##" ++ " " ++ bold (cyan c.implementation) ++ " Coverage Report\n\n" ++
    "Coverage: " ++ coloredPercent c.percent ++ " (" ++
      ratio c.implemented.members c.total.members ++ " members)\n" ++
    "  Domains:  " ++ ratio c.implemented.domains c.total.domains ++ "\n" ++
    "  Commands: " ++ ratio c.implemented.commands c.total.commands ++ "\n" ++
    "  Events:   " ++ ratio c.implemented.events c.total.events ++ "\n" ++
    "  Types:    " ++ ratio c.implemented.types c.total.types ++ "\n"

def coverages (list : List Coverage) : Format → String
  | .text => String.join (list.map coverageText)
  | .json => json (Document.Encode.list Coverage.encode list)

def describe (r : Reference) : String :=
  let path := (r.source.map (·.path)).getD "<unknown>"
  let position := r.location.position
  let place := s!"{path}:{position.line}:{position.column}"
  match r with
  | .comment _ prose _ => place ++ " " ++ dimmed ((Text.lines prose).headD "")
  | .occurrence _ => place

def referencedText (verbose : Bool) (name : String) (references : List Reference) : String :=
  let comments := (references.filter Reference.isComment).length
  "  " ++ green "+" ++ s!" {name} ({references.length} refs" ++
    (if comments > 0 then s!", {comments} comments" else "") ++ ")\n" ++
    (if verbose then String.join (references.map fun r => "      " ++ describe r ++ "\n") else "")

def unreferencedText (name : String) : String := "  " ++ yellow "-" ++ " " ++ dimmed name ++ "\n"

def kindText (verbose : Bool) (kind : MemberKind) (list : ReferenceList) : String :=
  let (unreferenced, referenced) := list.toList.partition fun (_, references) => references.isEmpty
  "\n" ++ bold (blue "->") ++ " " ++ kind.plural ++ " (" ++ green (toString referenced.length) ++
    "/" ++ toString list.size ++ " referenced):\n" ++
    String.join (referenced.map fun (name, references) => referencedText verbose name references) ++
    (if verbose then String.join (unreferenced.map fun (name, _) => unreferencedText name) else "")

def referencesText (implementation : String) (m : ReferenceMap) (verbose : Bool) : String :=
  "\n" ++ bold "##" ++ " " ++ bold (cyan implementation) ++ " References\n" ++
    String.join (MemberKind.all.map fun kind => kindText verbose kind (m.get kind))

def references (implementation : String) (m : ReferenceMap) (format : Format) (verbose : Bool) :
    String :=
  match format with
  | .text => referencesText implementation m verbose
  | .json => json m.encode

def annotationText (a : Comment.FileAnnotation) : String :=
  let position := a.comment.position
  s!"  {a.source.path}:{position.line}:{position.column}\n" ++
    String.join ((Text.lines a.comment.text).map fun line => "    " ++ dimmed line ++ "\n")

def comments (index : Comment.Index) : Format → String
  | .text => String.join (index.toList.map fun (symbol, found) =>
      bold (cyan symbol) ++ "\n" ++ String.join (found.map annotationText))
  | .json => json index.encode

end SchemaTrace.Report
