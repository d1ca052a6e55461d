import SchemaTrace.Checkout.Provider
import SchemaTrace.Comment.Index
import SchemaTrace.Configuration.Instances
import SchemaTrace.Session.Failure
import SchemaTrace.Session.SchemaFiles
/-!
Sessions: a configuration with the implementations built so far and the version of the protocol
they are compared with. Files are read as they are when a step is taken; what a step learned is
kept.
-/
namespace SchemaTrace

structure Session where
  configuration : Configuration
  /-- The directory that relative checkouts are seen from. -/
  base : String
  files : SchemaFiles
  version : Version := files.version
  instances : Instances := {}

namespace Session

def fresh (s : Session) : Session := { s with instances := {} }

/-- Points an entry at a checkout; implementations are built anew. -/
def setCheckout (s : Session) (id checkout : String) : Except ConfigurationError Session := do
  let configuration ← s.configuration.setCheckout id checkout
  return { s with configuration }.fresh

def model (t : FileTree) (s : Session) : Outcome Model × Session :=
  let (outcome, version) := s.version.getModel fun _ => s.files.load t
  (outcome, { s with version })

def implementation (id : String) (s : Session) :
    Except ConfigurationError Implementation × Session :=
  let (outcome, instances) := (Instances.lookup s.configuration s.base id).run.run s.instances
  (outcome, { s with instances })

def providers (t : FileTree) (s : Session) (slot : Nat) : Provider :=
  Checkout.provider t (s.instances.roots[slot]?.getD "")

def extract {α : Type} (t : FileTree) (step : (Nat → Provider) → Extracting α) (s : Session) :
    Except Error α × Session :=
  let (outcome, extractors) := (step (s.providers t)).run.run s.instances.extractors
  (outcome, { s with instances := { s.instances with extractors } })

end Session

def scanComments (t : FileTree) (root : String) (extensions : List String) (tag : String) :
    Except FetchError Comment.Index := do
  let name := ((t.canonical root).toOption.bind List.getLast?).getD "local"
  let cache : SnapshotCache :=
    { repo := { owner := "local", name }, scope := { roots := [""], extensions } }
  let (snapshot, _) := cache.run (SnapshotCache.getSnapshot (Checkout.provider t root))
  let snapshot ← snapshot
  return Comment.Index.ofFiles tag
    (snapshot.files.map fun (path, content) => (snapshot.sourceFile path, content))

end SchemaTrace
