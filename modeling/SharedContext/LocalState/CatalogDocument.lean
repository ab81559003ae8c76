import SharedContext.Domain.Engineering
import SharedContext.LocalState.Catalog

/-!
# The configuration document of the catalog

The document lists checkouts by the text of their paths.  Its validation
compares the texts, while every resolution compares the components that the
texts stand for.
-/

namespace SharedContext.LocalState

/-! ### The components of a path text -/

def isSkipped (segment : List Char) : Bool :=
  segment = [] || segment = ['.']

/-- The path that a text stands for; a dot only counts in front of a relative path. -/
def HostPath.ofText (text : String) : HostPath :=
  let segments := text.toList.splitOn '/'
  let absolute := text.toList.head? = some '/'
  let leading := if !absolute && segments.head? = some ['.'] then ["."] else []
  { absolute
    components := leading ++ (segments.filter (!isSkipped ·)).map String.ofList }

/-- What is left of the segments of a text behind so many components. -/
def restAfter : Nat → List (List Char) → List (List Char)
  | 0, segments => segments
  | _ + 1, [] => []
  | count + 1, segment :: segments =>
      if isSkipped segment then restAfter (count + 1) segments else restAfter count segments

/-- The text that is left of a path behind a prefix of it, without what is skipped at its ends. -/
def relativeText (path : String) (base : HostPath) : String :=
  let rest := restAfter base.components.length (path.toList.splitOn '/')
  let trimmed := ((rest.dropWhile isSkipped).reverse.dropWhile isSkipped).reverse
  String.ofList (['/'].intercalate trimmed)

/-! ### The document -/

def configVersion : Nat := 1
def maxCatalogRepositories : Nat := 256
def maxCheckoutsPerRepository : Nat := 32

structure RepositoryConfigDocument where
  id : RepositoryId
  paths : List String
  deriving DecidableEq, Repr

structure ConfigDocument where
  version : Nat
  store : String
  repositories : List RepositoryConfigDocument
  allowHome : Bool
  deriving DecidableEq, Repr

/-- Check the paths of one repository; `own` are those seen before of it, `paths` those of all. -/
def validateCheckoutPaths (id : RepositoryId) :
    List String → List String → List (String × RepositoryId) → Result (List (String × RepositoryId))
  | [], _, paths => pure paths
  | path :: rest, own, paths => do
      validateAbsolutePath (.ofText path) "Repository checkout path"
      Result.require (path ∉ own)
        (invalid s!"duplicate checkout path for Repository {id.text}: {path}")
      match paths.find? fun entry => entry.1 = path with
      | some (_, owner) =>
          throw (invalid
            s!"checkout path belongs to multiple Repository identities: {owner.text} and {id.text}")
      | none => validateCheckoutPaths id rest (path :: own) ((path, id) :: paths)

def validateRepositories :
    List RepositoryConfigDocument → List RepositoryId → List (String × RepositoryId) → Result Unit
  | [], _, _ => pure ()
  | repository :: rest, ids, paths => do
      Result.require (repository.id ∉ ids)
        (invalid s!"duplicate Repository Catalog identity: {repository.id.text}")
      Result.require (repository.paths.length ≤ maxCheckoutsPerRepository)
        (invariant
          s!"Repository {repository.id.text} exceeds {maxCheckoutsPerRepository} checkout paths")
      let paths ← validateCheckoutPaths repository.id repository.paths [] paths
      validateRepositories rest (repository.id :: ids) paths

def validateRepositoryDocuments (repositories : List RepositoryConfigDocument) : Result Unit := do
  Result.require (repositories.length ≤ maxCatalogRepositories)
    (invariant s!"Repository Catalog exceeds {maxCatalogRepositories} identities")
  validateRepositories repositories [] []

/-- Validate a document of the Store whose path text is expected. -/
def validateDocumentStructure (document : ConfigDocument) (expected : String) : Result Unit := do
  Result.require (document.version = configVersion)
    (invariant s!"unsupported config version {document.version}")
  Result.require (document.store = expected)
    (invariant
      s!"config must contain exactly the fixed Store {expected}; found {document.store}")
  validateRepositoryDocuments document.repositories

def RepositoryConfigDocument.entry (repository : RepositoryConfigDocument) :
    RepositoryCatalogEntry :=
  ⟨repository.id, repository.paths.map .ofText⟩

def catalogSnapshot (document : ConfigDocument) (home : Option HostPath) :
    RepositoryCatalogSnapshot :=
  ⟨document.repositories.map (·.entry), document.allowHome, home⟩

/-! ### Resolving paths of artifacts -/

structure ResolvedRepositoryPath where
  repositoryId : RepositoryId
  checkoutPath : HostPath
  relativePath : RepoRelativePath
  deriving DecidableEq, Repr

def repoRelativePath (value : String) : Result RepoRelativePath := do
  validateRepoRelativePath value
  pure ⟨value⟩

namespace RepositoryCatalogSnapshot

/-- Resolve a declared path; the file system is asked whether its components below the checkout
are still what they were. -/
def resolveDeclaredPath (catalog : RepositoryCatalogSnapshot)
    (validateDeclaredComponents : HostPath → HostPath → Result Unit) (declaredPath : String) :
    Result ResolvedRepositoryPath := do
  validateAbsolutePath (.ofText declaredPath) "declared Artifact path"
  match catalog.checkoutsFor (.ofText declaredPath) with
  | [] =>
      throw ⟨.repositoryNotConfigured,
        "declared Artifact path is not inside a configured Repository checkout"⟩
  | (repositoryId, checkoutPath) :: _ => do
      validateDeclaredComponents (.ofText declaredPath) checkoutPath
      let relativePath ← repoRelativePath (relativeText declaredPath checkoutPath)
      pure ⟨repositoryId, checkoutPath, relativePath⟩

/-- Resolve a canonical file inside one of the allowed workspaces. -/
def resolveCanonicalFile (catalog : RepositoryCatalogSnapshot) (canonicalFile : String)
    (canonicalWorkspaceRoots : List HostPath) : Result ResolvedRepositoryPath := do
  validateAbsolutePath (.ofText canonicalFile) "canonical file path"
  Result.require (canonicalWorkspaceRoots.any fun workspace =>
      (HostPath.ofText canonicalFile).startsWith workspace)
    (invalid "file path is outside the allowed Workspace")
  match catalog.checkoutsFor (.ofText canonicalFile) with
  | [] =>
      throw ⟨.repositoryNotConfigured,
        "file path is not inside a configured Repository checkout"⟩
  | (repositoryId, checkoutPath) :: _ => do
      let relativePath ← repoRelativePath (relativeText canonicalFile checkoutPath)
      pure ⟨repositoryId, checkoutPath, relativePath⟩

end RepositoryCatalogSnapshot

end SharedContext.LocalState
