import SchemaTrace.Configuration.Document
import SchemaTrace.Configuration.Validity
import SchemaTrace.FileTree
import SchemaTrace.Yaml.Reader
/-!
Configurations as YAML files. A file that does not exist stands for the built-in configuration.
-/
namespace SchemaTrace

inductive ConfigurationFault where
  | unreadable (path : String) (error : FileError)
  | malformed (error : Document.DecodeError)
  | invalid (error : ConfigurationError)
  /-- A fault in the text of a file. -/
  | within (path : String) (fault : ConfigurationFault)
  deriving DecidableEq, Repr

namespace Configuration

def ofDocument (lists : Bool) (doc : Document) : Except ConfigurationFault Configuration := do
  let c ← (decode lists doc).mapError .malformed
  c.validate.mapError .invalid
  return c

def ofYaml (source : String) : Except ConfigurationFault Configuration :=
  ofDocument false (Yaml.read source)

def load (t : FileTree) (path : String) : Except ConfigurationFault Configuration :=
  if t.present path then
    match t.readText path with
    | .error error => .error (.unreadable path error)
    | .ok source => (ofYaml source).mapError (.within path)
  else .ok builtIn

end Configuration
end SchemaTrace
