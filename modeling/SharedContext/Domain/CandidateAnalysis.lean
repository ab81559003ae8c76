import SharedContext.Domain.Confirmation

/-!
# Candidate analyses

How a Candidate relates to the Context revisions that retrieval found, and
which Spaces are recommended for it.  Neither is a fact: both are derived
again whenever the Candidate is analyzed.
-/

namespace SharedContext

structure ArtifactRef where
  repositoryId : RepositoryId
  locator : ArtifactLocator
  deriving DecidableEq, Repr

structure ContextRevisionRef where
  contextId : ContextId
  revisionId : RevisionId
  deriving DecidableEq, Repr

/-- References are ordered by their Context and then by their revision. -/
def ContextRevisionRef.le (left right : ContextRevisionRef) : Bool :=
  left.contextId < right.contextId ||
    (left.contextId = right.contextId && left.revisionId ≤ right.revisionId)

inductive CandidateReviewStatus
  | pending
  | discarded
  | expired
  | confirmed
  deriving DecidableEq, Repr

inductive CandidateAnalysisStatus
  | pending
  | complete
  | failed
  deriving DecidableEq, Repr

inductive AutomaticCandidateStatus
  | draft
  | needsEvidence
  | needsSpaceReview
  | exactDuplicateReview
  | potentialContradictionReview
  | readyForReview
  deriving DecidableEq, Repr

inductive CandidateAssessmentRelation
  | exactDuplicate
  | supports
  | revises
  | potentialContradiction
  | unresolvedRelated
  | novel
  deriving DecidableEq, Repr

/-- Typed evidence for one assessment. -/
inductive CandidateAssessmentPath
  | canonicalDraftEquality
  | statementEquality
  | topicEquality (topicKey : String)
  | explicitRelatedContext
  | exactArtifactGraph (artifact : ArtifactRef)
  | contextRelationHop (relation : ContextRelationKind) (depth : Nat)
  | contextFullText (matchedTerms : List String)
  | sharedIdentifier (identifiers : List String)
  | nearDuplicateStatement (similarityBasisPoints : Nat)
  | scopeOverlap (domains platforms conditions : List String)
  | safetyDiagnostic (reason : String)
  | noSufficientCandidate
  deriving DecidableEq, Repr

def CandidateAssessmentPath.validate (path : CandidateAssessmentPath) (field : String) :
    Result Unit :=
  match path with
  | .canonicalDraftEquality | .statementEquality | .explicitRelatedContext
  | .noSufficientCandidate => .ok ()
  | .topicEquality topicKey => requireText topicKey s!"{field}.topic_key"
  | .exactArtifactGraph artifact => artifact.locator.validate
  | .contextRelationHop _ depth =>
      Result.require (depth ≠ 0 ∧ depth ≤ 2) (invalid s!"{field}.depth must be one or two")
  | .contextFullText matchedTerms => do
      Result.require (matchedTerms ≠ []) (invalid s!"{field}.matched_terms must not be empty")
      requireTextItems matchedTerms s!"{field}.matched_terms"
  | .nearDuplicateStatement similarity =>
      Result.require (similarity ≠ 0 ∧ similarity ≤ 10000)
        (invalid s!"{field}.similarity_basis_points must be between 1 and 10000")
  | .sharedIdentifier identifiers => do
      Result.require (2 ≤ identifiers.length)
        (invalid s!"{field}.identifiers requires at least two shared identifiers")
      requireTextItems identifiers s!"{field}.identifiers"
  | .scopeOverlap domains platforms conditions => do
      Result.require (¬ (domains = [] ∧ platforms = [] ∧ conditions = []))
        (invalid s!"{field} requires an overlapping scope")
      requireTextItems domains s!"{field}.domains"
      requireTextItems platforms s!"{field}.platforms"
      requireTextItems conditions s!"{field}.conditions"
  | .safetyDiagnostic reason => requireText reason s!"{field}.reason"

/-- Deterministic confidence with a human-readable basis. -/
structure CandidateConfidence where
  basisPoints : Nat
  rationale : String
  deriving DecidableEq, Repr

def CandidateConfidence.validate (confidence : CandidateConfidence) (field : String) :
    Result Unit := do
  Result.require (confidence.basisPoints ≤ 10000)
    (invalid s!"{field}.basis_points must be between 0 and 10000")
  requireText confidence.rationale s!"{field}.rationale"

structure CandidateRelationAssessment where
  relation : CandidateAssessmentRelation
  target : Option ContextRevisionRef
  confidence : CandidateConfidence
  paths : List CandidateAssessmentPath
  reasons : List String
  deriving DecidableEq, Repr

namespace CandidateRelationAssessment

/-- Whether the recorded paths support calling an assessment an exact duplicate. -/
def claimsADuplicatePath (assessment : CandidateRelationAssessment) : Bool :=
  assessment.paths.contains .canonicalDraftEquality ||
    (assessment.paths.contains .statementEquality &&
      assessment.paths.any fun path => path matches .topicEquality _) ||
    assessment.paths.any fun path => path matches .nearDuplicateStatement _

def validate (assessment : CandidateRelationAssessment) (field : String) : Result Unit := do
  match assessment.relation, assessment.target with
  | .novel, some _ => throw (invalid s!"{field}.novel must not have a target")
  | .novel, none | _, some _ => pure ()
  | _, none => throw (invalid s!"{field} requires a target")
  assessment.confidence.validate s!"{field}.confidence"
  Result.require (assessment.paths ≠ [] ∧ assessment.reasons ≠ [])
    (invalid s!"{field} requires typed paths and reasons")
  requireUnique assessment.paths s!"{field}.paths"
  assessment.paths.zipIdx.forM fun (path, index) => path.validate s!"{field}.paths[{index}]"
  requireTextItems assessment.reasons s!"{field}.reasons"
  Result.require (assessment.relation = .exactDuplicate → assessment.claimsADuplicatePath = true)
    (invalid (s!"{field}.exact_duplicate requires canonical draft equality, statement equality " ++
      "on one topic key, or a near-duplicate statement against an accepted Context"))

end CandidateRelationAssessment

/-- Generation-pinned, rebuildable review assessment of a Candidate. -/
structure CandidateAnalysis where
  status : CandidateAnalysisStatus
  assessments : List CandidateRelationAssessment
  contextTreeOid : Option String
  contextGeneration : Option Nat
  graphContextTreeOid : Option String
  artifactGeneration : Option String
  tokenBudget : Nat
  estimatedTokens : Nat
  omittedTargetCount : Nat
  errorCode : Option String
  deriving DecidableEq, Repr

namespace CandidateAnalysis

/-- Targets are assessed at most once each. -/
def validateTargets : List (Option ContextRevisionRef) →
    List (CandidateRelationAssessment × Nat) → Result Unit
  | _, [] => .ok ()
  | targets, (assessment, index) :: rest => do
      assessment.validate s!"candidate_analysis.assessments[{index}]"
      if assessment.relation = .novel then validateTargets targets rest
      else do
        Result.require (assessment.target ∉ targets)
          (invalid "candidate_analysis must not assess one target more than once")
        validateTargets (assessment.target :: targets) rest

def validate (analysis : CandidateAnalysis) : Result Unit :=
  match analysis.status with
  | .pending =>
      Result.require (analysis.assessments = [] ∧ analysis.errorCode = none)
        (invalid "pending Candidate analysis cannot contain results or an error")
  | .failed =>
      Result.require (analysis.assessments = [] ∧ analysis.errorCode.getD "" ≠ "")
        (invalid "failed Candidate analysis requires only a typed error code")
  | .complete => do
      Result.require
        (analysis.contextTreeOid.getD "" ≠ "" ∧ analysis.contextGeneration.isSome = true ∧
          analysis.assessments ≠ [] ∧ analysis.errorCode = none)
        (invalid "complete Candidate analysis requires Context provenance and assessments")
      Result.require (analysis.estimatedTokens ≤ analysis.tokenBudget)
        (invalid "Candidate analysis estimated tokens exceed its budget")
      validateTargets [] analysis.assessments.zipIdx
      let novel := analysis.assessments.countP fun assessment => assessment.relation = .novel
      Result.require (0 < novel → novel = 1 ∧ analysis.assessments.length = 1)
        (invalid "novel Candidate analysis must be one exclusive assessment")

end CandidateAnalysis

/-! ### Space recommendations -/

inductive RecommendedSpaceRole
  | primary
  | related
  deriving DecidableEq, Repr

/-- Typed evidence for a non-binding Space recommendation. -/
inductive CandidateSpaceRecommendationPath
  | candidateTarget (relation : CandidateAssessmentRelation) (target : ContextRevisionRef)
  | sourceTaskAssociation (reason : String)
  | spaceIntentMatch (matchedTerms : List String)
  | intentConflict (headCount : Nat)
  | proposedFromTaskIntentRevision (proposedSpaceGroupKey : ProposedSpaceGroupKey)
  | proposedSpaceGroupResolved (proposedSpaceGroupKey : ProposedSpaceGroupKey)
  | proposedFromCandidate
  | manualReview
  deriving DecidableEq, Repr

/-- A Space recommendation without its identifier, which is a digest of the rest. -/
inductive CandidateSpaceRecommendation
  | existing (spaceId : SpaceId) (role : RecommendedSpaceRole) (rationale : String)
      (confidence : CandidateConfidence) (paths : List CandidateSpaceRecommendationPath)
  | proposedNewSpaceIntent (proposedSpaceGroupKey : Option ProposedSpaceGroupKey)
      (proposedNewSpaceIntent : IntentSnapshot) (rationale : String)
      (confidence : CandidateConfidence) (paths : List CandidateSpaceRecommendationPath)
  deriving DecidableEq, Repr

namespace CandidateSpaceRecommendation

def isRelated : CandidateSpaceRecommendation → Bool
  | existing _ .related .. => true
  | _ => false

def isPrimary : CandidateSpaceRecommendation → Bool
  | existing _ .primary .. => true
  | _ => false

end CandidateSpaceRecommendation

end SharedContext
