import SchemaTrace.Text.Basic
/-!
Options and positional arguments on a command line. A long option takes its value behind an equals
sign or from the next argument; short options may be run together, the last of them with its
value. Behind two hyphens everything is positional.
-/
namespace SchemaTrace.CommandLine

structure OptionSpec where
  name : String
  short : Option Char := none
  takesValue : Bool := true
  /-- Whether the option may be given more than once. -/
  repeats : Bool := false
  /-- Whether nothing behind the option is read. -/
  halts : Bool := false
  deriving DecidableEq, Repr

structure GivenOption where
  spec : OptionSpec
  value : String
  deriving DecidableEq, Repr

structure Arguments where
  options : List GivenOption := []
  positional : List String := []
  deriving DecidableEq, Repr

namespace Arguments

def addOption (a : Arguments) (spec : OptionSpec) (value : String) : Arguments :=
  { a with options := a.options ++ [⟨spec, value⟩] }

def addPositional (a : Arguments) (value : String) : Arguments :=
  { a with positional := a.positional ++ [value] }

def values (a : Arguments) (spec : OptionSpec) : List String :=
  (a.options.filter fun o => o.spec.name = spec.name).map (·.value)

def value? (a : Arguments) (spec : OptionSpec) : Option String := (a.values spec).getLast?

def has (a : Arguments) (spec : OptionSpec) : Bool := !(a.values spec).isEmpty

def isDistinct (a : Arguments) : Bool :=
  a.options.all fun o => o.spec.repeats || (a.values o.spec).length ≤ 1

end Arguments

def looksLikeOption (argument : String) : Bool :=
  match argument.toList with
  | '-' :: _ :: _ => true
  | _ => false

/-- What the options of one argument come to: those that are complete, and one that takes the next
argument as its value. -/
structure OptionReading where
  complete : List GivenOption := []
  waiting : Option OptionSpec := none

def readLong (specs : List OptionSpec) (text : Text) : Option OptionReading :=
  let (name, value) := match Text.splitFirst? '=' text with
    | some (name, value) => (name, some (String.ofList value))
    | none => (text, none)
  match specs.find? fun spec => spec.name.toList = name, value with
  | none, _ => none
  | some spec, none => some (if spec.takesValue then ⟨[], spec⟩ else ⟨[⟨spec, ""⟩], none⟩)
  | some spec, some value => if spec.takesValue then some ⟨[⟨spec, value⟩], none⟩ else none

def readShort (specs : List OptionSpec) : Text → Option OptionReading
  | [] => some {}
  | c :: t => do
    let spec ← specs.find? fun spec => spec.short = some c
    if spec.takesValue then
      match t with
      | [] => return ⟨[], spec⟩
      | '=' :: value => return ⟨[⟨spec, String.ofList value⟩], none⟩
      | value => return ⟨[⟨spec, String.ofList value⟩], none⟩
    else if spec.halts then return ⟨[⟨spec, ""⟩], none⟩
    else
      let rest ← readShort specs t
      return { rest with complete := ⟨spec, ""⟩ :: rest.complete }

def readOption (specs : List OptionSpec) (argument : String) : Option OptionReading :=
  match argument.toList with
  | '-' :: '-' :: t => readLong specs t
  | '-' :: t => readShort specs t
  | _ => none

/-- Reads arguments behind those in `read`; `stop` tells of which positional argument on the rest
is left, and `waiting` which option takes the next argument. -/
def readArguments (specs : List OptionSpec) (stop : String → Bool) (read : Arguments)
    (waiting : Option OptionSpec) : List String → Option (Arguments × List String)
  | [] => if waiting.isSome then none else some (read, [])
  | argument :: rest =>
    match waiting with
    | some spec =>
      if looksLikeOption argument then none
      else readArguments specs stop (read.addOption spec argument) none rest
    | none =>
      if argument = "--" then some (rest.foldl Arguments.addPositional read, [])
      else if looksLikeOption argument then
        match readOption specs argument with
        | none => none
        | some reading =>
          let read := { read with options := read.options ++ reading.complete }
          if reading.complete.any (·.spec.halts) then some (read, [])
          else readArguments specs stop read reading.waiting rest
      else if stop argument then some (read, argument :: rest)
      else readArguments specs stop (read.addPositional argument) none rest

end SchemaTrace.CommandLine
