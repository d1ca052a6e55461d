import SchemaTrace.CommandLine.Run
/-!
Which files a command line reads: single places first, and then, as the configuration found there
says, whole directories with the ignore files above them.
-/
namespace SchemaTrace.CommandLine

def directoriesAbove (names : List String) : List String :=
  (List.range (names.length + 1)).map fun n => Path.ofNames (names.take n)

def configurationPlaces (here : List String) : Option String → List String
  | some path => [path]
  | none =>
    (directoriesAbove here).map fun directory => Path.join directory Configuration.defaultPath

def Command.output? : Command → Option String
  | .references _ _ _ _ output => output
  | .filter _ _ _ output => output
  | _ => none

def Command.protocol? : Command → Option ProtocolOptions
  | .references _ protocol .. => some protocol
  | .filter _ protocol .. => some protocol
  | .coverage _ protocol .. => some protocol
  | .comments .. => none

def Command.checkouts : Command → List CheckoutOption
  | .references _ _ checkouts .. => checkouts
  | .filter _ _ checkouts _ => checkouts
  | .coverage _ _ checkouts .. => checkouts
  | .comments .. => []

/-- The places that are read whatever the configuration says. -/
def places (here : List String) (config : Option String) (command : Command) : List String :=
  let schemas := (command.protocol?.map (·.schemas)).getD []
  let outputs := command.output?.toList.flatMap fun path => (Path.parent? path).toList ++ [path]
  [Path.ofNames here] ++ configurationPlaces here config ++ schemas ++
    outputs.filter (!·.isEmpty)

def checkoutPlaces (t : FileTree) (config : Option String) (checkouts : List CheckoutOption) :
    List String :=
  let path := configurationPath t config
  let configured := match Configuration.load t path with
    | .ok c => c.entries.filterMap fun e => e.checkout.map (Path.join (baseDirectory t path))
    | .error _ => []
  configured ++ checkouts.map (·.2)

def wholeDirectories (t : FileTree) (config : Option String) : Command → List String
  | .comments root .. => [root]
  | command => checkoutPlaces t config command.checkouts

def ruleFiles : List String := [".ignore", ".gitignore", ".git/HEAD", ".git/info/exclude"]

def repositoryFiles : List String := ["HEAD", "packed-refs", "refs", "info"]

end SchemaTrace.CommandLine
