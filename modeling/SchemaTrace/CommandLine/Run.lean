import SchemaTrace.CommandLine.Invocation
import SchemaTrace.Report.Style
import SchemaTrace.Schema.Encode
import SchemaTrace.Session.Basic
/-!
Running a command over a tree of files: what is printed, what is told about the progress, the files
afterwards, and the failure that ended the run, if one did.
-/
namespace SchemaTrace.CommandLine

open Style

structure Progress where
  tree : FileTree
  /-- Text for the output of the program. -/
  printed : String := ""
  /-- Lines about the progress, for the other output. -/
  told : String := ""

/-- A step of a run; what was printed before a failure stays printed. -/
abbrev Running (α : Type) := ExceptT Failure (StateM Progress) α

def print (text : String) : Running Unit := modify fun p => { p with printed := p.printed ++ text }

def tell (line : String) : Running Unit := modify fun p => { p with told := p.told ++ line ++ "\n" }

def arrow : String := bold (blue "->")

def workingDirectory (t : FileTree) : String := Path.ofNames t.here

def projectAbove? (t : FileTree) : (names : List String) → Option (List String)
  | [] => if t.isDirectory (Path.join "/" Configuration.directory) then some [] else none
  | name :: names =>
    let place := (name :: names).reverse
    if t.isDirectory (Path.join (Path.ofNames place) Configuration.directory) then some place
    else projectAbove? t names

def projectDirectory (t : FileTree) : String :=
  Path.ofNames ((projectAbove? t t.here.reverse).getD t.here)

def configurationPath (t : FileTree) (config : Option String) : String :=
  config.getD (Path.join (projectDirectory t) Configuration.defaultPath)

def loadConfiguration (path : String) : Running Configuration := do
  let t := (← get).tree
  (Configuration.load t path).mapError Failure.configurationFault

def useCheckouts (t : FileTree) (c : Configuration) :
    List CheckoutOption → Except ConfigurationError Configuration
  | [] => .ok c
  | (id, directory) :: rest => do
    let c ← c.setCheckout id (Path.absolute (workingDirectory t) directory)
    useCheckouts t c rest

def baseDirectory (t : FileTree) (path : String) : String :=
  match Path.parent? path with
  | some directory => if t.present path then directory else workingDirectory t
  | none => workingDirectory t

def openSession (config : Option String) (protocol : ProtocolOptions)
    (checkouts : List CheckoutOption) : Running Session := do
  let t := (← get).tree
  let path := configurationPath t config
  let configuration ← loadConfiguration path
  let configuration ← (useCheckouts t configuration checkouts).mapError Failure.configuration
  return {
    configuration
    base := baseDirectory t path
    files := ⟨protocol.schemas, protocol.stable⟩ }

def loadModel (s : Session) : Running (Model × Session) := do
  tell s!"{arrow} Loading protocol from {s.files.paths.length} file(s)..."
  let (outcome, s) := s.model (← get).tree
  let model ← outcome.mapError Failure.protocol
  tell s!"   Found {green (toString model.schema.domains.length)} domains"
  return (model, s)

def findImplementation (s : Session) (id : String) : Running (Implementation × Session) := do
  let (outcome, s) := s.implementation id
  let i ← outcome.mapError Failure.configuration
  return (i, s)

def extract {α : Type} (s : Session) (step : (Nat → Provider) → Extracting α)
    (failure : Error → Failure) : Running (α × Session) := do
  let (outcome, s) := s.extract (← get).tree step
  let answer ← outcome.mapError failure
  return (answer, s)

def deliver (output : Option String) (content : String) : Running Unit := do
  match output with
  | none => print content
  | some path =>
    let p ← get
    let tree ← (p.tree.writeText path content).mapError (Failure.unwritable path)
    set { p with tree }
    tell (bold (green "OK") ++ s!" Wrote {path}")

def scanning (name : String) : Running Unit := tell s!"{arrow} Scanning {cyan name}..."

def runReferences (s : Session) (id : String) (format : Report.Format) (verbose : Bool)
    (output : Option String) : Running Unit := do
  let (model, s) ← loadModel s
  let (i, s) ← findImplementation s id
  scanning i.displayName
  let (references, _) ←
    extract s (fun providers => i.references providers model.schema) (.extraction id)
  deliver output (Report.references i.displayName references format verbose)

def runFilter (s : Session) (id : String) (output : Option String) : Running Unit := do
  let (model, s) ← loadModel s
  let (i, s) ← findImplementation s id
  let (filtered, _) ← extract s (fun providers => i.filter providers model.schema) (.filtering id)
  tell <| "   " ++ cyan i.displayName ++ " implements " ++
    green (toString filtered.domains.length) ++ s!" of {model.schema.domains.length} domains"
  deliver output (filtered.toJson ++ "\n")

/-- The coverage of each implementation; one that cannot be built is passed over unless it was
asked for. -/
def coverages (schema : Schema) (asked : Bool) (s : Session) : List String → Running (List Coverage)
  | [] => return []
  | id :: rest => do
    match s.implementation id with
    | (.error error, s) =>
      if asked then throw (.configuration error)
      coverages schema asked s rest
    | (.ok i, s) =>
      scanning id
      let (c, s) ← extract s (fun providers => i.coverage providers schema) (.extraction id)
      let more ← coverages schema asked s rest
      return c :: more

def runCoverage (s : Session) (ids : List String) (format : Report.Format) (threshold : Float) :
    Running Bool := do
  let (model, s) ← loadModel s
  let found ←
    coverages model.schema (!ids.isEmpty) s (if ids.isEmpty then s.configuration.ids else ids)
  if found.isEmpty then throw .nothingScanned
  print (Report.coverages found format)
  return found.all (Coverage.reaches · threshold)

def runComments (config : Option String) (root : String) (extensions : List String)
    (tag : Option String) (format : Report.Format) : Running Unit := do
  let t := (← get).tree
  let tag ← match tag with
    | some tag => pure tag
    | none => do
      let configuration ← loadConfiguration (configurationPath t config)
      pure configuration.tag
  let index ← (scanComments t root extensions tag).mapError (Failure.unreadable root)
  tell s!"{arrow} Found {green (toString index.count)} tagged comments"
  print (Report.comments index format)

def runCommand (config : Option String) (verbose : Bool) : Command → Running Nat
  | .references id protocol checkouts format output => do
    runReferences (← openSession config protocol checkouts) id format verbose output
    return 0
  | .filter id protocol checkouts output => do
    runFilter (← openSession config protocol checkouts) id output
    return 0
  | .coverage ids protocol checkouts format threshold check => do
    let passing ← runCoverage (← openSession config protocol checkouts) ids format threshold
    return if check && !passing then 1 else 0
  | .comments root extensions tag format => do
    runComments config root extensions tag format
    return 0

structure Ending where
  code : Nat
  progress : Progress
  failure : Option Failure := none

def versionText : String := "protoscope 1.0.0\n"

def usageText : String :=
  "Usage: protoscope [OPTIONS] <COMMAND>\n\nCommands: " ++
    ", ".intercalate (commandSpecs.map (·.name)) ++ "\n"

def run (t : FileTree) (arguments : List String) : Ending :=
  match Invocation.ofArguments? arguments with
  | none => ⟨2, { tree := t, told := usageText }, none⟩
  | some .version => ⟨0, { tree := t, printed := versionText }, none⟩
  | some .help => ⟨0, { tree := t, printed := usageText }, none⟩
  | some (.run config verbose command) =>
    match (runCommand config verbose command).run.run { tree := t } with
    | (.ok code, progress) => ⟨code, progress, none⟩
    | (.error failure, progress) => ⟨1, progress, some failure⟩

end SchemaTrace.CommandLine
