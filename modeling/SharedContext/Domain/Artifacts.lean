import SharedContext.Domain.Engineering

/-!
# Artifacts

What engineering references resolve to: the objects found in a repository,
the outcome of resolving one reference, and the link it makes from a Context.
-/

namespace SharedContext

structure RepositoryIdentity where
  repositoryId : RepositoryId
  canonicalName : String
  deriving DecidableEq

def RepositoryIdentity.validate (identity : RepositoryIdentity) : Result Unit :=
  requireText identity.canonicalName "repository_identity.canonical_name"

def ArtifactKind.stableName : ArtifactKind → String
  | .module => "module"
  | .file => "file"
  | .symbol => "symbol"
  | .api => "api"
  | .schema => "schema"
  | .test => "test"

/-- A repository and an exact locator in it, which determine the digest of the key. -/
structure ArtifactKey where
  repositoryId : RepositoryId
  locator : ArtifactLocator
  deriving DecidableEq

namespace ArtifactKey

def kind (key : ArtifactKey) : ArtifactKind :=
  key.locator.kind

def validate (key : ArtifactKey) : Result Unit :=
  key.locator.validate

def locatorExplanation (key : ArtifactKey) : String :=
  s!"exact {key.kind.stableName} locator {key.locator.path.text} in repository {key.repositoryId.text}"

end ArtifactKey

/-- One currently discovered engineering object; it is rebuildable derived state. -/
structure EngineeringArtifact where
  repository : RepositoryIdentity
  artifactKey : ArtifactKey
  displayName : String
  deriving DecidableEq

def EngineeringArtifact.validate (artifact : EngineeringArtifact) : Result Unit := do
  artifact.repository.validate
  artifact.artifactKey.validate
  requireText artifact.displayName "engineering_artifact.display_name"
  Result.require (artifact.repository.repositoryId = artifact.artifactKey.repositoryId)
    (invalid "engineering_artifact key and repository identity must match")

/-- Current outcome of resolving a persistent reference against available code. -/
inductive ResolutionStatus
  | resolved
  | ambiguous
  | missing
  | unavailable
  deriving DecidableEq

structure ArtifactResolution where
  referenceId : ReferenceId
  repositoryId : RepositoryId
  status : ResolutionStatus
  resolvedArtifact : Option ArtifactKey
  candidates : List ArtifactKey
  explanation : String
  deriving DecidableEq

/-- The artifacts that a status goes with. -/
def ArtifactResolution.validShape (resolution : ArtifactResolution) : Bool :=
  match resolution.status with
  | .resolved => resolution.resolvedArtifact.isSome && resolution.candidates.length = 1 &&
      resolution.resolvedArtifact = resolution.candidates.head?
  | .ambiguous => resolution.resolvedArtifact.isNone && !resolution.candidates.isEmpty
  | .missing | .unavailable => resolution.resolvedArtifact.isNone && resolution.candidates.isEmpty

def ArtifactResolution.validate (resolution : ArtifactResolution) : Result Unit := do
  requireText resolution.explanation "artifact_resolution.explanation"
  resolution.candidates.forM fun candidate => do
    candidate.validate
    Result.require (candidate.repositoryId = resolution.repositoryId)
      (invalid "artifact_resolution candidates must share its repository identity")
  Result.require resolution.candidates.Nodup
    (invalid "artifact_resolution candidates must not contain duplicates")
  resolution.resolvedArtifact.toList.forM fun artifact => do
    artifact.validate
    Result.require (artifact.repositoryId = resolution.repositoryId)
      (invalid "artifact_resolution resolved artifact must share its repository identity")
  Result.require resolution.validShape
    (invalid "artifact_resolution status is incompatible with artifact fields")

theorem ArtifactResolution.validate_eq_ok {resolution : ArtifactResolution} :
    resolution.validate = .ok () ↔ isBlank resolution.explanation = false ∧
      (∀ candidate ∈ resolution.candidates, candidate.validate = .ok () ∧
        candidate.repositoryId = resolution.repositoryId) ∧
      resolution.candidates.Nodup ∧
      (∀ artifact ∈ resolution.resolvedArtifact, artifact.validate = .ok () ∧
        artifact.repositoryId = resolution.repositoryId) ∧
      resolution.validShape := by
  simp only [ArtifactResolution.validate, Result.bind_eq_ok, Result.exists_unit,
    Result.require_eq_ok, requireText_eq_ok, Result.forM_eq_ok, Option.mem_toList, Option.mem_def]

inductive ArtifactAssociationKind
  | implements
  | definesContract
  | uses
  | validatedBy
  | constrainedBy
  deriving DecidableEq

def ArtifactAssociationKind.supports : ArtifactAssociationKind → ArtifactKind → Bool
  | .implements, kind => kind = .module || kind = .file || kind = .symbol
  | .definesContract, kind => kind = .api || kind = .schema
  | .uses, _ => true
  | .validatedBy, kind => kind = .test
  | .constrainedBy, kind => kind = .module || kind = .api || kind = .schema

/-- Derived, rebuildable link between Context and one resolved Artifact. -/
structure ContextArtifactAssociation where
  contextId : ContextId
  revisionId : RevisionId
  artifactKey : ArtifactKey
  kind : ArtifactAssociationKind
  sourceReferenceIds : List ReferenceId
  confidence : Rat
  explanation : String
  deriving DecidableEq

def ContextArtifactAssociation.validate (association : ContextArtifactAssociation) :
    Result Unit := do
  association.artifactKey.validate
  Result.require (association.kind.supports association.artifactKey.kind)
    (invalid "context_artifact_association kind is incompatible with ArtifactKind")
  Result.require (0 < association.confidence ∧ association.confidence ≤ 1)
    (invalid "context_artifact_association confidence must be finite and in (0, 1]")
  Result.require (association.sourceReferenceIds ≠ [])
    (invalid "context_artifact_association requires at least one source ReferenceId")
  Result.require association.sourceReferenceIds.Nodup
    (invalid "context_artifact_association source references must be unique")
  requireText association.explanation "context_artifact_association.explanation"

end SharedContext
