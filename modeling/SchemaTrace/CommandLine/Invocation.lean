import SchemaTrace.CommandLine.Options
import SchemaTrace.Decimal.Literal
import SchemaTrace.Report.Render
/-!
What a command line asks for. A command line that is not one of the forms below asks for nothing
and is refused.
-/
namespace SchemaTrace.CommandLine

structure ProtocolOptions where
  schemas : List String
  stable : Bool
  deriving DecidableEq, Repr

abbrev CheckoutOption := String × String

inductive Command where
  /-- Where an implementation references each member. -/
  | references (id : String) (protocol : ProtocolOptions) (checkouts : List CheckoutOption)
    (format : Report.Format) (output : Option String)
  /-- The part of the protocol that an implementation uses. -/
  | filter (id : String) (protocol : ProtocolOptions) (checkouts : List CheckoutOption)
    (output : Option String)
  /-- How much of the protocol implementations cover. -/
  | coverage (ids : List String) (protocol : ProtocolOptions) (checkouts : List CheckoutOption)
    (format : Report.Format) (threshold : Float) (check : Bool)
  /-- The tagged comments below a directory. -/
  | comments (root : String) (extensions : List String) (tag : Option String)
    (format : Report.Format)

inductive Invocation where
  | version
  | help
  | run (config : Option String) (verbose : Bool) (command : Command)

namespace Spec

def config : OptionSpec := { name := "config", short := 'c' }
def verbose : OptionSpec := { name := "verbose", short := 'v', takesValue := false }
def version : OptionSpec := { name := "version", short := 'V', takesValue := false, halts := true }
def help : OptionSpec := { name := "help", short := 'h', takesValue := false, halts := true }
def schema : OptionSpec := { name := "schema", short := 's', repeats := true }
def stable : OptionSpec := { name := "stable", takesValue := false }
def checkout : OptionSpec := { name := "checkout", repeats := true }
def format : OptionSpec := { name := "format", short := 'f' }
def output : OptionSpec := { name := "output", short := 'o' }
def implementation : OptionSpec := { name := "implementation", short := 'i', repeats := true }
def threshold : OptionSpec := { name := "threshold" }
def check : OptionSpec := { name := "check", takesValue := false }
def extensions : OptionSpec := { name := "extensions", short := 'e', repeats := true }
def tag : OptionSpec := { name := "tag", short := 't' }

def everywhere : List OptionSpec := [config, verbose, help]

def protocol : List OptionSpec := [schema, stable, checkout]

end Spec

def path? (value : String) : Option String := if value.isEmpty then none else some value

def given? {α : Type} (a : Arguments) (spec : OptionSpec) (read : String → Option α) :
    Option (Option α) :=
  match a.value? spec with
  | none => some none
  | some value => (read value).map some

def checkout? (value : String) : Option CheckoutOption := do
  let (id, directory) ← Text.splitFirst? '=' value.toList
  if id.isEmpty || directory.isEmpty then none
  else some (String.ofList id, String.ofList directory)

def format? (value : String) : Option Report.Format :=
  if value = "text" then some .text else if value = "json" then some .json else none

def protocolOptions? (a : Arguments) : Option ProtocolOptions := do
  let schemas ← (a.values Spec.schema).mapM path?
  if schemas.isEmpty then none
  return ⟨schemas, a.has Spec.stable⟩

def checkoutOptions? (a : Arguments) : Option (List CheckoutOption) :=
  (a.values Spec.checkout).mapM checkout?

def defaultExtensions : List String := ["cpp", "h"]

def extensions (a : Arguments) : List String :=
  match a.values Spec.extensions with
  | [] => defaultExtensions
  | values => values.flatMap fun value => (Text.splitAll ',' value.toList).map String.ofList

/-- The command of a name: the options it takes besides those that may stand everywhere, and how
its arguments are understood. -/
structure CommandSpec where
  name : String
  options : List OptionSpec
  understand : Arguments → Option Command

def referencesSpec : CommandSpec where
  name := "refs"
  options := Spec.protocol ++ [Spec.format, Spec.output]
  understand a := do
    let [id] := a.positional | none
    return .references id (← protocolOptions? a) (← checkoutOptions? a)
      ((← given? a Spec.format format?).getD .json) (← given? a Spec.output path?)

def filterSpec : CommandSpec where
  name := "filter"
  options := Spec.protocol ++ [Spec.output]
  understand a := do
    let [id] := a.positional | none
    return .filter id (← protocolOptions? a) (← checkoutOptions? a) (← given? a Spec.output path?)

def coverageSpec : CommandSpec where
  name := "stats"
  options := Spec.protocol ++ [Spec.implementation, Spec.format, Spec.threshold, Spec.check]
  understand a := do
    let [] := a.positional | none
    return .coverage (a.values Spec.implementation) (← protocolOptions? a) (← checkoutOptions? a)
      ((← given? a Spec.format format?).getD .text)
      ((← given? a Spec.threshold Decimal.float?).getD 0.0) (a.has Spec.check)

def commentsSpec : CommandSpec where
  name := "comments"
  options := [Spec.extensions, Spec.tag, Spec.format]
  understand a := do
    let root ← match a.positional with
      | [] => some "."
      | [root] => path? root
      | _ => none
    return .comments root (extensions a) (a.value? Spec.tag)
      ((← given? a Spec.format format?).getD .text)

def commandSpecs : List CommandSpec := [referencesSpec, filterSpec, coverageSpec, commentsSpec]

/-- Understands the arguments behind the name of a command; `before` holds those in front of it. -/
def ofCommand? (before : Arguments) (spec : CommandSpec) (rest : List String) :
    Option Invocation := do
  let (a, _) ← readArguments (Spec.everywhere ++ spec.options) (fun _ => false) {} none rest
  if !a.isDistinct then none
  if a.has Spec.help then return .help
  let outer ← given? before Spec.config path?
  let inner ← given? a Spec.config path?
  let command ← spec.understand a
  return .run (inner <|> outer) (before.has Spec.verbose || a.has Spec.verbose) command

def Invocation.ofArguments? (arguments : List String) : Option Invocation := do
  let (before, rest) ←
    readArguments (Spec.version :: Spec.everywhere) (fun _ => true) {} none arguments
  if !before.isDistinct then none
  let _ ← given? before Spec.config path?
  if before.has Spec.version then return .version
  if before.has Spec.help then return .help
  match rest with
  | [] => none
  | name :: rest =>
    if name = Spec.help.name then return .help
    let spec ← commandSpecs.find? fun spec => spec.name = name
    ofCommand? before spec rest

end SchemaTrace.CommandLine
