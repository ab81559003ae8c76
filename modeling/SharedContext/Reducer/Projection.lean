import SharedContext.EventSchema.Payload
import SharedContext.Library.BTreeMap

/-!
# The projection of an event multiset

The result types of the reducer.  A sorted vector that the source collects
from an ordered set is kept as that set.
-/

namespace SharedContext

inductive ReducerDiagnosticCode
  | duplicateEventId
  | duplicateCandidateId
  | duplicateSubmissionId
  | duplicateConfirmationId
  | duplicateSpaceAssociationId
  | candidateConfirmationConflict
  | duplicateRevisionId
  | duplicateReviewId
  | duplicatePublicationId
  | duplicateEvidenceId
  | duplicateConflictId
  | duplicateResolutionId
  | duplicateReferenceId
  | duplicateSpaceCreation
  | ambiguousContextOwner
  | missingSpace
  | invalidRevisionReference
  | invalidContextRelation
  | invalidContextRelationTarget
  | revisionCycle
  | invalidReviewReference
  | invalidPublicationReference
  | publicationCycle
  | invalidSpaceAssociationReference
  | spaceAssociationCycle
  | invalidCandidateConfirmation
  | invalidSemanticConflictReference
  | invalidResolutionReference
  | resolutionCycle
  | invalidEngineeringReference
  | invalidEngineeringReferenceTarget
  deriving DecidableEq, Repr

/-- A deterministic explanation for quarantined input. -/
structure ReducerDiagnostic where
  code : ReducerDiagnosticCode
  entityId : String
  eventIds : Finset EventId
  message : String
  deriving DecidableEq

inductive ReviewSummary
  | unreviewed
  | approved
  | rejected
  | mixed
  deriving DecidableEq, Repr

/-- Publication-derived lifecycle of one complete Context revision. -/
inductive RevisionLifecycle
  | candidate
  | accepted
  | deprecated
  | superseded
  deriving DecidableEq, Repr

inductive ContextGovernanceStatus
  | unpublished
  | accepted (publicationId : PublicationId) (revisionId : RevisionId)
  | deprecated (publicationId : PublicationId) (revisionId : RevisionId)
  | governanceConflict (publicationIds : Finset PublicationId)
  deriving DecidableEq

/-- Reasons why a Context is excluded from automatic injection. -/
inductive AutoInjectionBlocker
  | notAccepted
  | governanceConflict
  | unresolvedSemanticConflict (conflictId : ConflictId)
  deriving DecidableEq, Repr

structure AutoInjectionEligibility where
  eligible : Bool
  blockers : Finset AutoInjectionBlocker
  deriving DecidableEq

/-- Projection of one immutable Context revision. -/
structure RevisionProjection where
  revision : ContextRevision
  isHead : Bool
  reviewSummary : ReviewSummary
  reviewEventIds : Finset EventId
  lifecycle : RevisionLifecycle

structure ContextProjection where
  contextId : ContextId
  revisions : BTreeMap RevisionId RevisionProjection
  revisionHeads : Finset RevisionId
  reviews : BTreeMap EventId Review
  publications : BTreeMap PublicationId Publication
  publicationHeads : Finset PublicationId
  governance : ContextGovernanceStatus
  autoInjection : AutoInjectionEligibility

/-- Deterministic pair of accepted Contexts requiring human semantic review. -/
structure SemanticConflictCandidate where
  spaceId : SpaceId
  topicKey : String
  participants : List ConflictParticipant
  deriving DecidableEq, Repr

inductive SemanticConflictOpenReason
  | noResolution
  | resolutionConflict
  | publicationHeadsNotConverged
  | resolutionDoesNotCoverCurrentPublicationHeads
  deriving DecidableEq, Repr

/-- Current state of one confirmed semantic conflict. -/
inductive SemanticConflictStatus
  | «open» (reasons : Finset SemanticConflictOpenReason)
  | resolved (resolutionId : ResolutionId)
  deriving DecidableEq

/-- Confirmed conflict plus its independently reduced resolution DAG. -/
structure SemanticConflictProjection where
  spaceId : SpaceId
  conflict : SemanticConflict
  resolutions : BTreeMap ResolutionId ConflictResolution
  resolutionHeads : Finset ResolutionId
  status : SemanticConflictStatus

structure IntentProjection where
  revisions : BTreeMap RevisionId IntentRevision
  heads : Finset RevisionId

structure ContextSpaceProjection where
  spaceId : SpaceId
  intent : IntentProjection
  contexts : BTreeMap ContextId ContextProjection

/-- Projection of one unassigned Candidate creation event. -/
structure CandidateProjection where
  eventId : EventId
  candidate : ContextCandidate

/-- Unique valid Candidate submission used by the idempotency index. -/
structure CandidateSubmissionProjection where
  submissionId : SubmissionId
  candidateId : CandidateId
  eventId : EventId
  sourceEpisode : WorkEpisodeRef
  contentHash : String
  deriving DecidableEq, Repr

structure CandidateSubmissionConflict where
  submissionId : SubmissionId
  eventIds : Finset EventId
  candidateIds : Finset CandidateId
  contentHashes : Finset String
  deriving DecidableEq

/-- One valid Candidate confirmation fact and its defining event. -/
structure CandidateConfirmationProjection where
  eventId : EventId
  confirmation : CandidateConfirmation

/-- Multiple confirmation events for one Candidate; no winner is selected. -/
structure CandidateConfirmationConflict where
  candidateId : CandidateId
  confirmationIds : Finset ConfirmationId
  eventIds : Finset EventId
  deriving DecidableEq

/-- One valid Context-to-Space association fact and its defining event. -/
structure ContextSpaceAssociationProjection where
  eventId : EventId
  association : ContextSpaceAssociation
  deriving DecidableEq

/-- Multiple causal association heads for one Context. -/
structure ContextSpaceAssociationConflict where
  contextId : ContextId
  headIds : Finset SpaceAssociationId
  deriving DecidableEq

/-- One valid engineering observation and its resolved Context owner. -/
structure EngineeringReferenceProjection where
  eventId : EventId
  spaceId : SpaceId
  contextId : ContextId
  revisionId : RevisionId
  reference : EngineeringReference
  deriving DecidableEq

/-- Complete deterministic result of reducing one event multiset. -/
structure DomainProjection where
  candidates : BTreeMap CandidateId CandidateProjection
  candidateSubmissions : BTreeMap SubmissionId CandidateSubmissionProjection
  candidateSubmissionConflicts : BTreeMap SubmissionId CandidateSubmissionConflict
  candidateConfirmations : BTreeMap ConfirmationId CandidateConfirmationProjection
  candidateConfirmationConflicts : BTreeMap CandidateId CandidateConfirmationConflict
  contextSpaceAssociations : BTreeMap SpaceAssociationId ContextSpaceAssociationProjection
  contextSpaceAssociationHeads : BTreeMap ContextId (Finset SpaceAssociationId)
  contextSpaceAssociationConflicts : BTreeMap ContextId ContextSpaceAssociationConflict
  spaces : BTreeMap SpaceId ContextSpaceProjection
  engineeringReferences : BTreeMap ReferenceId EngineeringReferenceProjection
  semanticConflictCandidates : Finset SemanticConflictCandidate
  semanticConflicts : BTreeMap ConflictId SemanticConflictProjection
  quarantinedEventIds : Finset EventId
  diagnostics : Finset ReducerDiagnostic

end SharedContext
