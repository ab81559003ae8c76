import Mathlib.Data.List.Lex
import Mathlib.Data.Prod.Lex
import Mathlib.Data.String.Basic
import SharedContext.Domain.Model
import SharedContext.EngineeringGraph.Scanner

/-!
# Resolving references

The resolver looks the locator of each reference up in the snapshot of its
repository.  Where a snapshot carries no evidence about a locator, a rebuild
keeps the answer of the previous projection.
-/

namespace SharedContext.EngineeringGraph

def windowsAny {α : Type} (breaks : α → α → Bool) (items : List α) : Bool :=
  (items.zip items.tail).any fun pair => breaks pair.1 pair.2

def invariantError (message : String) : Error :=
  ⟨.invariantViolation, message⟩

/-! ### Context snapshots -/

inductive GraphContextStatus
  | candidate
  | accepted
  | deprecated
  | superseded
  | governanceConflict
  deriving DecidableEq

inductive GraphContextSafetyBlocker
  | notAccepted
  | governanceConflict
  | unresolvedSemanticConflict (conflictId : ConflictId)
  | incompleteEvidence
  deriving DecidableEq

structure GraphContextSafety where
  automaticInjectionEligible : Bool
  blockers : List GraphContextSafetyBlocker
  deriving DecidableEq

/-- One relation with its build-time target revision fixed explicitly. -/
structure GraphContextRelation where
  targetSpaceId : SpaceId
  targetContextId : ContextId
  targetRevisionId : RevisionId
  kind : ContextRelationKind
  rationale : String
  supports : List String
  deriving DecidableEq

def relationKindRank : ContextRelationKind → Nat
  | .dependsOn => 0
  | .constrains => 1
  | .implements => 2
  | .validatedBy => 3
  | .contradicts => 4
  | .supersedes => 5
  | .relatedTo => 6

/-- The order of relations: field by field. -/
def GraphContextRelation.rank (relation : GraphContextRelation) :
    SpaceId ×ₗ ContextId ×ₗ RevisionId ×ₗ Nat ×ₗ String ×ₗ List String :=
  toLex (relation.targetSpaceId, toLex (relation.targetContextId, toLex (relation.targetRevisionId,
    toLex (relationKindRank relation.kind, toLex (relation.rationale, relation.supports)))))

structure GraphContextSnapshot where
  spaceId : SpaceId
  spaceTitle : String
  contextId : ContextId
  revision : ContextRevision
  status : GraphContextStatus
  evidenceCompleteness : Nat
  safety : GraphContextSafety
  relations : List GraphContextRelation

def contextEvidenceCompleteness (revision : ContextRevision) : Nat :=
  if revision.evidence.isEmpty then 0
  else
    let total := (revision.evidence.map fun item =>
      (if isBlank item.supports then 0 else 250) +
        (if item.content.isNonEmptyObject then 250 else 0) +
        (if isBlank item.interpretation then 0 else 250) +
        (if item.limitations.isEmpty then 0 else 250)).sum
    total / revision.evidence.length

namespace GraphContextSnapshot

def key (snapshot : GraphContextSnapshot) : ContextId × RevisionId :=
  (snapshot.contextId, snapshot.revision.revisionId)

/-- Whether a snapshot may come before another. -/
abbrev inOrder (first second : GraphContextSnapshot) : Prop :=
  toLex first.key ≤ toLex second.key

def validate (snapshot : GraphContextSnapshot) : Result Unit := do
  Result.require (isBlank snapshot.spaceTitle = false)
    (invariantError "Graph Context snapshot Space title is empty")
  snapshot.revision.validate
  let completeness := contextEvidenceCompleteness snapshot.revision
  Result.require (snapshot.evidenceCompleteness = completeness) (invariantError
    "Graph Context snapshot Evidence completeness is not derived from its Revision")
  let expectedEligible := snapshot.status = .accepted && completeness = 1000 &&
    !snapshot.revision.evidence.isEmpty && snapshot.safety.blockers.isEmpty
  Result.require (snapshot.safety.automaticInjectionEligible = expectedEligible)
    (invariantError "Graph Context snapshot safety decision is inconsistent")
  Result.require (expectedEligible ∨ snapshot.safety.blockers ≠ [])
    (invariantError "unsafe Graph Context snapshot requires a typed safety blocker")
  Result.require
    (!windowsAny (fun first second => decide (second.rank ≤ first.rank)) snapshot.relations)
    (invariantError "Graph Context snapshot Relations are duplicated or unsorted")

end GraphContextSnapshot

/-! ### Resolved references -/

/-- A reference with the Context revision that owns it. -/
structure ProjectedEngineeringReference where
  contextId : ContextId
  revisionId : RevisionId
  reference : EngineeringReference
  deriving DecidableEq

def ProjectedEngineeringReference.validate (projected : ProjectedEngineeringReference) :
    Result Unit :=
  projected.reference.validate

inductive MatchBasis
  | exactFilePath
  | exactModulePath
  | exactApiLocator
  | exactSchemaLocator
  | exactQualifiedSymbolLocator
  | exactQualifiedTestLocator
  | repositoryUnavailable
  deriving DecidableEq

def MatchBasis.confidence : MatchBasis → Rat
  | .exactFilePath | .exactModulePath | .exactApiLocator | .exactSchemaLocator
  | .exactQualifiedSymbolLocator | .exactQualifiedTestLocator => 1
  | .repositoryUnavailable => 0

structure CandidateMatchEvidence where
  artifactKey : Option ArtifactKey
  basis : MatchBasis
  confidence : Rat
  explanation : String
  deriving DecidableEq

/-- One reference's derived resolution and optional association. -/
structure ResolvedReferenceProjection where
  contextId : ContextId
  revisionId : RevisionId
  referenceId : ReferenceId
  locator : Option ArtifactLocator
  repositoryGeneration : Option String
  artifactGeneration : String
  resolution : ArtifactResolution
  association : Option ContextArtifactAssociation
  artifacts : List EngineeringArtifact
  evidence : List CandidateMatchEvidence
  deriving DecidableEq

namespace ResolvedReferenceProjection

/-- The artifact keys that a resolution names. -/
def expectedKeys (entry : ResolvedReferenceProjection) : List ArtifactKey :=
  match entry.resolution.status with
  | .resolved => entry.resolution.resolvedArtifact.toList
  | .ambiguous => entry.resolution.candidates
  | .missing | .unavailable => []

def validateAssociation (entry : ResolvedReferenceProjection) : Result Unit :=
  match entry.association with
  | some association => do
      association.validate
      Result.require (association.contextId = entry.contextId ∧
          association.revisionId = entry.revisionId ∧
          entry.resolution.resolvedArtifact = some association.artifactKey)
        (invariantError "ContextArtifactAssociation differs from resolved Reference")
  | none =>
      Result.require (entry.resolution.status ≠ .resolved)
        (invariantError "resolved Reference must produce ContextArtifactAssociation")

def validate (entry : ResolvedReferenceProjection) : Result Unit := do
  entry.resolution.validate
  Result.require (entry.referenceId = entry.resolution.referenceId)
    (invariantError "resolved Reference identity differs from ArtifactResolution")
  entry.validateAssociation
  Result.require (entry.evidence.all fun evidence =>
      decide (0 ≤ evidence.confidence ∧ evidence.confidence ≤ 1))
    (invariantError "resolution evidence confidence is invalid")
  entry.artifacts.forM EngineeringArtifact.validate
  Result.require (entry.artifacts.map EngineeringArtifact.artifactKey).Nodup
    (invariantError "resolved Engineering projection repeats an Artifact")
  Result.require ((entry.artifacts.map EngineeringArtifact.artifactKey).toFinset =
      entry.expectedKeys.toFinset)
    (invariantError "resolved Engineering Artifacts differ from ArtifactResolution")

theorem validate_eq_ok {entry : ResolvedReferenceProjection} :
    entry.validate = .ok () ↔ entry.resolution.validate = .ok () ∧
      entry.referenceId = entry.resolution.referenceId ∧ entry.validateAssociation = .ok () ∧
      (entry.evidence.all fun evidence =>
        decide (0 ≤ evidence.confidence ∧ evidence.confidence ≤ 1)) ∧
      (∀ artifact ∈ entry.artifacts, artifact.validate = .ok ()) ∧
      (entry.artifacts.map EngineeringArtifact.artifactKey).Nodup ∧
      (entry.artifacts.map EngineeringArtifact.artifactKey).toFinset =
        entry.expectedKeys.toFinset := by
  simp only [validate, Result.bind_eq_ok, Result.exists_unit, Result.require_eq_ok,
    Result.forM_eq_ok]

end ResolvedReferenceProjection

structure IncompleteRepositoryScan where
  repositoryId : RepositoryId
  repositoryGeneration : String
  scannedPaths : Nat
  unfinishedPaths : Nat
  unfinishedPrefixes : List String
  deriving DecidableEq

def resolverPolicyVersion : String :=
  "historical-context-snapshot-resolution-v2"

/-- Complete disposable projection for one resolver generation. -/
structure EngineeringProjection where
  policyVersion : String
  artifactGeneration : String
  contexts : List GraphContextSnapshot
  references : List ResolvedReferenceProjection
  incompleteScans : List IncompleteRepositoryScan

namespace EngineeringProjection

/-- The Space of the Context revision that a key names. -/
def spaceOf (projection : EngineeringProjection) (key : ContextId × RevisionId) :
    Option SpaceId :=
  (projection.contexts.find? fun context => context.key = key).map GraphContextSnapshot.spaceId

def validateContexts (projection : EngineeringProjection) : Result Unit := do
  projection.contexts.forM GraphContextSnapshot.validate
  Result.require (projection.contexts.map GraphContextSnapshot.key).Nodup
    (invariantError "Engineering projection repeats a Context Revision snapshot")
  Result.require (!windowsAny (fun first second => decide ¬ first.inOrder second) projection.contexts)
    (invariantError "Engineering projection Context snapshots are not sorted")
  Result.require (projection.contexts.all fun context => context.relations.all fun relation =>
      projection.spaceOf (relation.targetContextId, relation.targetRevisionId) =
        some relation.targetSpaceId)
    (invariantError "Engineering projection Relation target snapshot is missing")

def validateReference (projection : EngineeringProjection)
    (entry : ResolvedReferenceProjection) : Result Unit := do
  entry.validate
  Result.require (entry.artifactGeneration = projection.artifactGeneration)
    (invariantError "resolved Reference carries a stale artifact generation")
  Result.require ((entry.contextId, entry.revisionId) ∈
      projection.contexts.map GraphContextSnapshot.key)
    (invariantError "resolved Reference lacks its immutable Context Revision snapshot")

def validate (projection : EngineeringProjection) : Result Unit := do
  Result.require (projection.policyVersion = resolverPolicyVersion)
    (invariantError "Engineering projection policy version is unsupported")
  Result.require (isBlank projection.artifactGeneration = false)
    (invariantError "Engineering projection generation is empty")
  projection.validateContexts
  projection.references.forM projection.validateReference
  Result.require (projection.references.map ResolvedReferenceProjection.referenceId).Nodup
    (invariantError "Engineering projection repeats a ReferenceId")
  Result.require
    (!windowsAny (fun first second => decide (second.referenceId < first.referenceId))
      projection.references)
    (invariantError "Engineering projection References are not sorted")

end EngineeringProjection

/-! ### One reference -/

def RepositoryScanOutcome.repositoryId : RepositoryScanOutcome → RepositoryId
  | .available snapshot => snapshot.repositoryId
  | .unavailable repositoryId _ => repositoryId

def unscannedExplanation : String :=
  "The Repository snapshot stopped before this path; the scan says nothing about it"

def missingExplanation : String :=
  "The deterministic Artifact locator is missing from the Repository snapshot"

def resolvedExplanation : String :=
  "Reference resolved from highest-precedence stable evidence"

def isModuleLocator : ArtifactLocator → Bool
  | .module _ => true
  | _ => false

/-- Whether a snapshot carries evidence about the range a locator names. -/
def snapshotCovers (snapshot : RepositorySnapshot) (locator : ArtifactLocator) : Bool :=
  if isModuleLocator locator then snapshot.coverage.coversDirectory locator.path.text
  else snapshot.coverage.coversPath locator.path.text

def winningCandidates (reference : EngineeringReference) (artifacts : List SnapshotArtifact) :
    List SnapshotArtifact :=
  (artifacts.filter fun found =>
    found.artifact.repository.repositoryId = reference.repositoryId &&
      found.artifact.artifactKey.kind = reference.artifactKind).filter fun found =>
    found.artifact.artifactKey.locator = reference.locator

def candidateIsAmbiguous (candidate : SnapshotArtifact) : Bool :=
  !(candidate.artifact.artifactKey.kind = .file || candidate.artifact.artifactKey.kind = .module) &&
    decide (1 < candidate.observations.length)

def locatorMatchBasis : ArtifactLocator → MatchBasis
  | .file .. => .exactFilePath
  | .module .. => .exactModulePath
  | .api .. => .exactApiLocator
  | .schema .. => .exactSchemaLocator
  | .symbol .. => .exactQualifiedSymbolLocator
  | .test .. => .exactQualifiedTestLocator

def matchExplanation (basis : MatchBasis) (key : ArtifactKey) : String :=
  let used := match basis with
    | .exactFilePath => "exact repository-relative File path"
    | .exactModulePath => "exact repository-relative Module path"
    | .exactApiLocator => "exact protocol, operation, and route"
    | .exactSchemaLocator => "exact namespace, version, and qualified Schema"
    | .exactQualifiedSymbolLocator => "exact qualified Symbol signature"
    | .exactQualifiedTestLocator => "exact qualified Test name"
    | .repositoryUnavailable => "repository availability"
  s!"matched {key.locatorExplanation} using {used}"

def associationKind (relation : ReferenceRelation) (kind : ArtifactKind) :
    ArtifactAssociationKind :=
  match relation with
  | .defines => if kind = .api ∨ kind = .schema then .definesContract else .implements
  | .implements => .implements
  | .consumes | .dependsOn => .uses
  | .validates => .validatedBy
  | .constrains => .constrainedBy

section Reference

variable (projected : ProjectedEngineeringReference)

def projectionForStatus (repositoryGeneration : Option String) (status : ResolutionStatus)
    (resolvedArtifact : Option ArtifactKey) (artifacts : List EngineeringArtifact)
    (evidence : List CandidateMatchEvidence) (explanation : String) :
    Result ResolvedReferenceProjection := do
  let candidates := match status with
    | .resolved => resolvedArtifact.toList
    | .ambiguous => evidence.filterMap CandidateMatchEvidence.artifactKey
    | .missing | .unavailable => []
  let resolution : ArtifactResolution :=
    { referenceId := projected.reference.referenceId
      repositoryId := projected.reference.repositoryId
      status := status
      resolvedArtifact := resolvedArtifact
      candidates := candidates
      explanation := explanation }
  resolution.validate
  pure
    { contextId := projected.contextId
      revisionId := projected.revisionId
      referenceId := projected.reference.referenceId
      locator := some projected.reference.locator
      repositoryGeneration := repositoryGeneration
      artifactGeneration := ""
      resolution := resolution
      association := none
      artifacts := artifacts
      evidence := evidence }

def projectionForUnavailable (repositoryGeneration : Option String) (explanation : String) :
    Result ResolvedReferenceProjection :=
  projectionForStatus projected repositoryGeneration .unavailable none []
    [⟨none, .repositoryUnavailable, MatchBasis.repositoryUnavailable.confidence, explanation⟩]
    explanation

def candidateEvidence (candidate : SnapshotArtifact) : CandidateMatchEvidence :=
  let basis := locatorMatchBasis projected.reference.locator
  ⟨some candidate.artifact.artifactKey, basis, basis.confidence,
    matchExplanation basis candidate.artifact.artifactKey⟩

def projectionForResolved (snapshot : RepositorySnapshot) (candidate : SnapshotArtifact) :
    Result ResolvedReferenceProjection := do
  let key := candidate.artifact.artifactKey
  let evidence := candidateEvidence projected candidate
  let association : ContextArtifactAssociation :=
    { contextId := projected.contextId
      revisionId := projected.revisionId
      artifactKey := key
      kind := associationKind projected.reference.relation key.kind
      sourceReferenceIds := [projected.reference.referenceId]
      confidence := evidence.confidence
      explanation := evidence.explanation }
  association.validate
  let projection ← projectionForStatus projected (some snapshot.generation) .resolved (some key)
    [candidate.artifact] [evidence] resolvedExplanation
  pure { projection with association := some association }

def projectionForAmbiguous (snapshot : RepositorySnapshot) (candidates : List SnapshotArtifact) :
    Result ResolvedReferenceProjection :=
  projectionForStatus projected (some snapshot.generation) .ambiguous none
    (candidates.map SnapshotArtifact.artifact) (candidates.map (candidateEvidence projected))
    "Multiple Artifacts share equal highest-precedence evidence; lower path/time hints were not used to choose"

/-- Resolve one reference against the outcome of scanning its repository. -/
def resolveOne (outcome : Option RepositoryScanOutcome) : Result ResolvedReferenceProjection :=
  match outcome with
  | some (.unavailable _ reason) =>
      projectionForUnavailable projected none s!"Repository unavailable: {reason}"
  | none => projectionForUnavailable projected none "Repository snapshot unavailable"
  | some (.available snapshot) =>
      match winningCandidates projected.reference snapshot.artifacts with
      | [] =>
          if !snapshotCovers snapshot projected.reference.locator then
            projectionForUnavailable projected (some snapshot.generation) unscannedExplanation
          else
            projectionForStatus projected (some snapshot.generation) .missing none [] []
              missingExplanation
      | [candidate] =>
          if !candidateIsAmbiguous candidate then projectionForResolved projected snapshot candidate
          else projectionForAmbiguous projected snapshot [candidate]
      | candidates => projectionForAmbiguous projected snapshot candidates

/-- Keep the previous answer for a reference that this scan never reached. -/
def carryForward (previous : Option EngineeringProjection)
    (outcome : Option RepositoryScanOutcome) : Option ResolvedReferenceProjection :=
  match outcome with
  | some (.available snapshot) =>
      if snapshotCovers snapshot projected.reference.locator then none
      else
        previous.bind fun previous => previous.references.find? fun prior =>
          prior.referenceId = projected.reference.referenceId &&
            prior.contextId = projected.contextId && prior.revisionId = projected.revisionId &&
            prior.locator = some projected.reference.locator &&
            prior.resolution.status ≠ .unavailable
  | _ => none

end Reference

/-! ### All references -/

/-- The digest that names a resolver generation. -/
abbrev GenerationDigest :=
  List ProjectedEngineeringReference → List RepositoryScanOutcome → List GraphContextSnapshot →
    List ResolvedReferenceProjection → String

def snapshotMap (snapshots : List RepositoryScanOutcome) : Result (List RepositoryScanOutcome) := do
  Result.require (snapshots.map RepositoryScanOutcome.repositoryId).Nodup
    (invalid "Repository scan outcomes must not repeat RepositoryId")
  pure (snapshots.insertionSort fun first second =>
    first.repositoryId.text ≤ second.repositoryId.text)

def outcomeOf (snapshots : List RepositoryScanOutcome) (repositoryId : RepositoryId) :
    Option RepositoryScanOutcome :=
  snapshots.find? fun outcome => outcome.repositoryId = repositoryId

/-- Directory prefixes that still hold at least one unread planned path. -/
def unfinishedPrefixes (unfinished : List RepoRelativePath) : List String :=
  ((unfinished.map fun path => moduleName path.text).dedup).insertionSort (· ≤ ·)

def incompleteScans (snapshots : List RepositoryScanOutcome) : List IncompleteRepositoryScan :=
  snapshots.filterMap fun outcome =>
    match outcome with
    | .available snapshot =>
        match snapshot.coverage with
        | .complete => none
        | .incomplete covered unfinished =>
            some ⟨snapshot.repositoryId, snapshot.generation, covered.length, unfinished.length,
              unfinishedPrefixes unfinished⟩
    | .unavailable .. => none

def projectionGeneration (digest : GenerationDigest)
    (references : List ProjectedEngineeringReference) (snapshots : List RepositoryScanOutcome)
    (contexts : List GraphContextSnapshot) (resolved : List ResolvedReferenceProjection) : String :=
  "eng_" ++ digest references snapshots contexts resolved

def resolveReference (previous : Option EngineeringProjection)
    (snapshots : List RepositoryScanOutcome) (projected : ProjectedEngineeringReference) :
    Result ResolvedReferenceProjection := do
  projected.validate
  let outcome := outcomeOf snapshots projected.reference.repositoryId
  let resolution ← resolveOne projected outcome
  pure ((carryForward projected previous outcome).getD resolution)

abbrev referenceInOrder (first second : ProjectedEngineeringReference) : Prop :=
  first.reference.referenceId ≤ second.reference.referenceId

section Rebuild

variable (digest : GenerationDigest)

def resolveAgainst (previous : Option EngineeringProjection)
    (references : List ProjectedEngineeringReference) (snapshots : List RepositoryScanOutcome)
    (contexts : List GraphContextSnapshot) : Result EngineeringProjection := do
  let contexts := contexts.insertionSort GraphContextSnapshot.inOrder
  contexts.forM GraphContextSnapshot.validate
  let snapshots ← snapshotMap snapshots
  let ordered := references.insertionSort referenceInOrder
  let resolved ← ordered.mapM (resolveReference previous snapshots)
  Result.require (ordered.map fun projected => projected.reference.referenceId).Nodup
    (invalid "projected References must not repeat ReferenceId")
  let generation := projectionGeneration digest ordered snapshots contexts resolved
  let projection : EngineeringProjection :=
    { policyVersion := resolverPolicyVersion
      artifactGeneration := generation
      contexts := contexts
      references := resolved.map fun entry => { entry with artifactGeneration := generation }
      incompleteScans := incompleteScans snapshots }
  projection.validate
  pure projection

/-- Resolve references against the current repository snapshots. -/
def resolve (references : List ProjectedEngineeringReference)
    (snapshots : List RepositoryScanOutcome) (contexts : List GraphContextSnapshot) :
    Result EngineeringProjection :=
  resolveAgainst digest none references snapshots contexts

def resolveIncremental (previous : EngineeringProjection)
    (references : List ProjectedEngineeringReference) (snapshots : List RepositoryScanOutcome)
    (contexts : List GraphContextSnapshot) : Result EngineeringProjection := do
  previous.validate
  resolveAgainst digest (some previous) references snapshots contexts

end Rebuild

end SharedContext.EngineeringGraph
