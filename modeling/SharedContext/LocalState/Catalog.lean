import Mathlib.Data.String.Basic
import SharedContext.Domain.Ids
import SharedContext.Domain.Validation
import SharedContext.Library.BTreeMap

/-!
# Activation from the repository catalog

The catalog lists the checkouts of every registered repository.  The directory
in which an agent session started tells which of them it may record for: the
repository whose checkout it is in, or every repository with a checkout below
it, unless the directory is a guarded ancestor.
-/

namespace SharedContext.LocalState

/-- A path of the host: whether it starts at the root, and its components. -/
structure HostPath where
  absolute : Bool
  components : List String
  deriving DecidableEq, Repr

namespace HostPath

/-- The path is the other one or lies below it. -/
def startsWith (path other : HostPath) : Bool :=
  path.absolute = other.absolute && other.components.isPrefixOf path.components

def parent (path : HostPath) : Option HostPath :=
  if path.components = [] then none else some { path with components := path.components.dropLast }

def hasDotSegment (path : HostPath) : Bool :=
  path.components.any fun component => component = "." || component = ".."

def length (path : HostPath) : Nat :=
  max 1 (path.components.map fun component => component.utf8ByteSize + 1).sum

end HostPath

def invariant (message : String) : Error :=
  ⟨.invariantViolation, message⟩

def validateAbsolutePath (path : HostPath) (field : String) : Result Unit :=
  Result.require (path.absolute = true ∧ path.hasDotSegment = false)
    (invalid s!"{field} must be an absolute path without dot segments")

inductive ActivationScope
  | enabled (repositoryIds : List RepositoryId)
  | disabled
  deriving DecidableEq, Repr

structure RepositoryCatalogEntry where
  repositoryId : RepositoryId
  checkoutPaths : List HostPath
  deriving DecidableEq, Repr

/-- The registered repositories and the activation switch; `home` is the home
directory that the environment names. -/
structure RepositoryCatalogSnapshot where
  repositories : List RepositoryCatalogEntry
  allowHome : Bool
  home : Option HostPath
  deriving DecidableEq, Repr

instance : LinearOrder RepositoryId :=
  LinearOrder.lift' RepositoryId.text fun first second same => by
    cases first
    cases second
    exact congrArg RepositoryId.mk same

namespace RepositoryCatalogSnapshot

/-- The checkouts that contain a path, the deepest one first. -/
def checkoutsFor (catalog : RepositoryCatalogSnapshot) (path : HostPath) :
    List (RepositoryId × HostPath) :=
  let found := catalog.repositories.flatMap fun repository =>
    (repository.checkoutPaths.filter path.startsWith).map fun checkout =>
      (repository.repositoryId, checkout)
  found.insertionSort fun left right =>
    right.2.components.length < left.2.components.length ∨
      right.2.components.length = left.2.components.length ∧ left.1 ≤ right.1

/-- The deepest configured checkout that contains a path. -/
def deepestCheckoutFor (catalog : RepositoryCatalogSnapshot) (path : HostPath) :
    Result (Option (RepositoryId × HostPath)) :=
  match catalog.checkoutsFor path with
  | [] => pure none
  | (repositoryId, checkoutPath) :: others =>
      if others.any fun (otherId, otherPath) =>
          otherPath = checkoutPath && otherId ≠ repositoryId then
        throw (invariant "ActivationScope has ambiguous checkout ownership")
      else pure (some (repositoryId, checkoutPath))

/-- Starting in the root, in the home directory or in its parent activates
nothing. -/
def parentActivationIsGuarded (catalog : RepositoryCatalogSnapshot) (directory : HostPath) :
    Bool :=
  if directory.parent = none then true
  else if catalog.allowHome then false
  else
    match catalog.home.filter fun home => home.absolute && home.parent ≠ none with
    | none => false
    | some home => directory = home || some directory = home.parent

def resolveRecordedActivationScope (catalog : RepositoryCatalogSnapshot)
    (canonicalStartupCwd : HostPath) : Result ActivationScope := do
  validateAbsolutePath canonicalStartupCwd "Agent startup directory"
  match ← catalog.deepestCheckoutFor canonicalStartupCwd with
  | some (repositoryId, _) => pure (.enabled [repositoryId])
  | none =>
      if catalog.parentActivationIsGuarded canonicalStartupCwd then pure .disabled
      else
        let below := catalog.repositories.filter fun repository =>
          repository.checkoutPaths.any fun checkout => checkout.startsWith canonicalStartupCwd
        let repositoryIds := BTreeMap.ordered (below.map (·.repositoryId)).toFinset
        if repositoryIds = [] then pure .disabled else pure (.enabled repositoryIds)

end RepositoryCatalogSnapshot

end SharedContext.LocalState
