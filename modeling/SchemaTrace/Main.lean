import SchemaTrace.CommandLine.Reads
/-!
The command line program. It takes what a command reads from disk, runs the command on that, and
prints and writes what the run gives.
-/
namespace SchemaTrace.Program

open CommandLine

def place (path : String) := (fun directory => directory / path) <$> IO.currentDir

def realPath (path : String) : IO String := do return toString (← IO.FS.realPath (← place path))

partial def readNode (path : String) : IO FileNode := do
  let found ← place path
  match (← found.symlinkMetadata).type with
  | .file => return .file (← IO.FS.readBinFile found)
  | .symlink => return .link (← realPath path <|> pure "")
  | .dir =>
    let names := ((← found.readDir).map (·.fileName)).toList
    let kept := if (Path.names path).getLast? = some ".git" then
      names.filter (repositoryFiles.contains ·) else names
    kept.foldlM (fun node name => do
      let child ← readNode (Path.join path name)
      return child.put [name] node) .empty
  | .other => return .link ""

def readShallow (path : String) : IO FileNode := do
  let found ← place path
  if ← found.isDir then return .empty else return .file (← IO.FS.readBinFile found)

def enter (whole : Bool) (t : FileTree) (path : String) : IO FileTree := do
  let here ← realPath "."
  let steps := Path.steps (Path.absolute here path)
  let (t, _) ← steps.zipIdx.foldlM (fun (t, walked) (step, n) => do
    let next := Path.join walked step
    let isLast := n + 1 = steps.length
    let parent ← realPath walked
    let linked := match (← (← place next).symlinkMetadata).type with
      | .symlink => true
      | _ => false
    let real ← realPath next
    let t := if linked then t.put (Path.join parent step) (.link real) else t
    if whole && isLast then return (t.put real (← readNode real), next)
    else if t.present real then return (t, next)
    else return (t.put real (← readShallow real), next)) (t, "/")
  return t

def enterIfReadable (whole : Bool) (t : FileTree) (path : String) : IO FileTree :=
  enter whole t path <|> pure t

/-- Enters a directory with all below it and the ignore files above it. -/
def enterDirectory (t : FileTree) (path : String) : IO FileTree := do
  let t ← enterIfReadable true t path
  match t.canonical path with
  | .error _ => return t
  | .ok names =>
    let rules := (directoriesAbove names).flatMap fun directory =>
      ruleFiles.map (Path.join directory)
    rules.foldlM (fun t path => if t.present path then pure t else enterIfReadable false t path) t

def readFiles (arguments : List String) : IO FileTree := do
  let here := Path.names (← realPath ".")
  let t : FileTree := { here }
  match Invocation.ofArguments? arguments with
  | some (.run config _ command) =>
    let t ← (places here config command).foldlM (enterIfReadable false) t
    (wholeDirectories t config command).foldlM enterDirectory t
  | _ => return t

def writeFiles (arguments : List String) (ending : Ending) : IO Unit := do
  if let some (.run _ _ command) := Invocation.ofArguments? arguments then
    if let some path := command.output? then
      if let .ok text := ending.progress.tree.readText path then
        IO.FS.writeFile (← place path) text

end SchemaTrace.Program

open SchemaTrace SchemaTrace.Program in
def main (arguments : List String) : IO UInt32 := do
  let ending := CommandLine.run (← readFiles arguments) arguments
  IO.print ending.progress.printed
  IO.eprint ending.progress.told
  match ending.failure with
  | some failure => IO.eprintln failure.report
  | none => writeFiles arguments ending
  return ending.code.toUInt32
