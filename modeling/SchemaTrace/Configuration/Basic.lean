import SchemaTrace.Comment.Annotation
import SchemaTrace.Convention.Preset
/-!
Configurations: the tag of comments and the implementations to look at. An entry takes its
references from exactly one source: a built-in convention, a convention spelled out, or the
references of other entries.
-/
namespace SchemaTrace

structure ConfiguredEntry where
  id : String
  /-- The name of a built-in convention. -/
  preset : Option String := none
  convention : Option Convention := none
  /-- The ids of the entries whose references are taken together. -/
  merge : Option (List String) := none
  /-- A local checkout, relative to the configuration. -/
  checkout : Option String := none
  deriving DecidableEq

structure Configuration where
  tag : String := Comment.defaultTag
  entries : List ConfiguredEntry := []
  deriving DecidableEq

inductive ConfigurationError where
  | duplicateId (id : String)
  | unknownPreset (id preset : String)
  | noSource (id : String)
  | severalSources (id : String)
  | unknownMember (id member : String)
  /-- `path` leads from `id` back to it. -/
  | mergesItself (id : String) (path : List String)
  | unknownId (id : String) (configured : List String)
  | notConfigured (id : String)
  | noCheckout (id : String)
  | invalidConvention (id : String) (error : Error)
  deriving DecidableEq, Repr

namespace ConfigurationError

def message : ConfigurationError → String
  | .duplicateId id => s!"Implementation '{id}' is defined more than once"
  | .unknownPreset id preset =>
    s!"Implementation '{id}' uses unknown preset '{preset}' (known: " ++
      ", ".intercalate Preset.names ++ ")"
  | .noSource id =>
    s!"Implementation '{id}' has no source - please specify preset, convention, or merge"
  | .severalSources id =>
    s!"Implementation '{id}' has multiple sources - " ++
      "please specify only one of preset, convention, or merge"
  | .unknownMember id member => s!"Implementation '{id}' merges unknown implementation '{member}'"
  | .mergesItself id path =>
    s!"Implementation '{id}' merges itself (" ++ " -> ".intercalate path ++ ")"
  | .unknownId id configured =>
    s!"Unknown implementation '{id}' (configured: " ++ ", ".intercalate configured ++ ")"
  | .notConfigured id => s!"Unknown implementation '{id}'"
  | .noCheckout id =>
    s!"Implementation '{id}' has no checkout - set `checkout` in the config " ++
      s!"or pass --checkout {id}=<dir>"
  | .invalidConvention id _ => s!"Invalid convention for implementation '{id}'"

def cause? : ConfigurationError → Option Error
  | .invalidConvention _ error => some error
  | _ => none

end ConfigurationError

inductive Source where
  | convention (convention : Convention)
  | merge (members : List String)

namespace ConfiguredEntry

def ofPreset (id preset : String) : ConfiguredEntry := { id, preset := some preset }

def ofMerge (id : String) (members : List String) : ConfiguredEntry :=
  { id, merge := some members }

def source (e : ConfiguredEntry) : Except ConfigurationError Source :=
  match e.preset, e.convention, e.merge with
  | some name, none, none =>
    match Preset.find? name with
    | some convention => .ok (.convention convention)
    | none => .error (.unknownPreset e.id name)
  | none, some convention, none => .ok (.convention convention)
  | none, none, some members => .ok (.merge members)
  | none, none, none => .error (.noSource e.id)
  | _, _, _ => .error (.severalSources e.id)

end ConfiguredEntry

namespace Configuration

def directory : String := ".config/protoscope"

def defaultPath : String := directory ++ "/config.yaml"

/-- The built-in conventions, and React Native together with Hermes. -/
def builtIn : Configuration where
  entries :=
    (Preset.names.map fun name => .ofPreset name name) ++
      [.ofMerge Preset.reactNativeHermesName [Preset.reactNativeName, Preset.hermesName]]

def ids (c : Configuration) : List String := c.entries.map (·.id)

def find? (c : Configuration) (id : String) : Option ConfiguredEntry :=
  c.entries.find? fun e => e.id = id

def changeFirst (id : String) (change : ConfiguredEntry → ConfiguredEntry) :
    List ConfiguredEntry → List ConfiguredEntry
  | [] => []
  | e :: rest => if e.id = id then change e :: rest else e :: changeFirst id change rest

def setCheckout (c : Configuration) (id checkout : String) :
    Except ConfigurationError Configuration :=
  if id ∈ c.ids then
    let entries := changeFirst id (fun e => { e with checkout := some checkout }) c.entries
    .ok { c with entries }
  else .error (.notConfigured id)

end Configuration
end SchemaTrace
