import SharedContext.Domain.Confirmation

/-!
# Confirmation plans

The complete fact closure of one Candidate confirmation, reserved with all its
identities before the Git write.  A retry is recognised by the hash of the
operation, which excludes the generated identities; the plan hash covers them.
-/

namespace SharedContext

/-- Public selection identity included in one confirmation operation hash. -/
inductive CandidateConfirmationPrimaryReference
  | existingSpace (spaceId : SpaceId)
  | proposedRecommendation (recommendationId : SpaceRecommendationId)
  deriving DecidableEq, Repr

/-- Authoritative semantics of one confirmation operation, excluding generated
identities. -/
structure CandidateConfirmationOperation where
  candidateId : CandidateId
  reviewParentVersion : Nat
  analysisGeneration : Nat
  primary : CandidateConfirmationPrimaryReference
  relatedSpaceIds : List SpaceId
  edits : OptionalCandidateEdits
  deriving Repr

local instance lawfulBEq_spaceId : LawfulBEq SpaceId := inferInstance

def CandidateConfirmationOperation.validate (operation : CandidateConfirmationOperation) :
    Result Unit := do
  Result.require (operation.reviewParentVersion ≠ 0 ∧ operation.analysisGeneration ≠ 0)
    (invalid "Candidate Confirmation operation requires positive Review and analysis generations")
  requireUnique operation.relatedSpaceIds "candidate_confirmation_operation.related_space_ids"
  match operation.primary with
  | .existingSpace spaceId =>
      Result.require (spaceId ∉ operation.relatedSpaceIds)
        (invalid "Candidate Confirmation operation Related Spaces must not include Primary")
  | .proposedRecommendation _ => pure ()

/-- Server-owned event identities for one atomic confirmation fact closure. -/
structure CandidateConfirmationPlanEventIds where
  spaceCreatedEventId : Option EventId
  contextRevisionEventId : EventId
  spaceAssociationEventId : EventId
  publicationEventId : EventId
  engineeringReferenceEventIds : List EventId
  semanticConflictEventIds : List EventId
  confirmationEventId : EventId
  deriving DecidableEq, Repr

/-- One semantic conflict reserved inside a plan and written in the same batch. -/
structure SemanticConflictOpening where
  spaceId : SpaceId
  conflict : SemanticConflict
  deriving DecidableEq, Repr

/-- Server-owned new Space fact reserved inside a plan. -/
structure CandidateConfirmationNewSpace where
  spaceId : SpaceId
  intentRevision : IntentRevision
  deriving DecidableEq, Repr

/-- Complete stable fact closure reserved before one atomic Git write. -/
structure CandidateConfirmationPlan where
  operation : CandidateConfirmationOperation
  operationHash : String
  newSpace : Option CandidateConfirmationNewSpace
  resultContextId : ContextId
  resultRevision : ContextRevision
  spaceAssociation : ContextSpaceAssociation
  publication : Publication
  engineeringReferences : List EngineeringReference
  openedConflicts : List SemanticConflictOpening
  confirmation : CandidateConfirmation
  eventIds : CandidateConfirmationPlanEventIds
  deriving Repr

/-- The JSON encoders of operations and plans beside those of their contents. -/
structure PlanHasher extends ContentHasher where
  operationToVec : CandidateConfirmationOperation → List UInt8
  planToVec : CandidateConfirmationPlan → List UInt8

variable (hasher : PlanHasher)

def CandidateConfirmationOperation.hash (operation : CandidateConfirmationOperation) : String :=
  "sha256:" ++ hasher.sha256Hex (hasher.operationToVec operation)

def sameEngineeringReferenceContent (left right : EngineeringReference) : Bool :=
  left.repositoryId = right.repositoryId && left.artifactKind = right.artifactKind &&
    left.relation = right.relation && left.locator = right.locator &&
    left.supports = right.supports && left.limitations = right.limitations

/-- Check references in order against those before them. -/
def validatePlanReferences (before : List EngineeringReference) :
    List EngineeringReference → Result Unit
  | [] => pure ()
  | reference :: rest => do
      reference.validate
      Result.require
        (reference.referenceId ∉ before.map EngineeringReference.referenceId ∧
          ¬ before.any fun existing => sameEngineeringReferenceContent existing reference)
        (invalid "Candidate Confirmation Engineering References must be unique")
      validatePlanReferences (before ++ [reference]) rest

/-- Check that the sides of a conflict repeat no target seen before. -/
def validateConflictTargets (targets : List ContextId) :
    List ConflictParticipant → Result (List ContextId)
  | [] => pure targets
  | side :: rest => do
      Result.require (side.contextId ∉ targets)
        (invalid "Candidate Confirmation conflict targets must not repeat")
      validateConflictTargets (side.contextId :: targets) rest

namespace CandidateConfirmationPlan

def planHash (plan : CandidateConfirmationPlan) : String :=
  "sha256:" ++ hasher.sha256Hex (hasher.planToVec plan)

/-- Check the opened conflicts in order, given the conflict ids and targets of
those before. -/
def validateOpenings (plan : CandidateConfirmationPlan) (conflictIds : List ConflictId)
    (targets : List ContextId) : List SemanticConflictOpening → Result Unit
  | [] => pure ()
  | opening :: rest => do
      opening.conflict.validate
      Result.require
        (opening.spaceId = plan.confirmation.primarySpaceId ∧
          opening.conflict.conflictId ∉ conflictIds)
        (invalid
          "Candidate Confirmation opened conflicts must be unique and Primary-scoped")
      match opening.conflict.participants with
      | [] => throw (invalid "Candidate Confirmation conflict has no participants")
      | source :: sides =>
          Result.require
            (source.contextId = plan.resultContextId ∧
              source.revisionId = plan.resultRevision.revisionId ∧
              source.publicationId = plan.publication.publicationId)
            (invalid "Candidate Confirmation conflict must name the confirming revision first")
          Result.require
            (opening.conflict.applicability = plan.resultRevision.applicability)
            (invalid
              "Candidate Confirmation conflict applicability must be the confirming revision's")
          let targets ← validateConflictTargets targets sides
          validateOpenings plan (opening.conflict.conflictId :: conflictIds) targets rest

def identitiesConsistent (plan : CandidateConfirmationPlan) : Prop :=
  plan.operationHash = plan.operation.hash hasher ∧
    plan.operation.candidateId = plan.confirmation.candidateId ∧
    plan.resultContextId = plan.confirmation.resultContextId ∧
    plan.resultRevision.revisionId = plan.confirmation.resultRevisionId ∧
    plan.spaceAssociation.associationId = plan.confirmation.spaceAssociationId ∧
    plan.publication.publicationId = plan.confirmation.publicationId ∧
    plan.publication.revisionId = plan.resultRevision.revisionId ∧
    plan.spaceAssociation.contextId = plan.resultContextId ∧
    plan.spaceAssociation.primarySpaceId = plan.confirmation.primarySpaceId ∧
    plan.spaceAssociation.relatedSpaceIds = plan.confirmation.relatedSpaceIds ∧
    plan.eventIds.engineeringReferenceEventIds =
      plan.confirmation.causalRefs.engineeringReferenceEventIds ∧
    plan.eventIds.engineeringReferenceEventIds.length = plan.engineeringReferences.length ∧
    plan.eventIds.semanticConflictEventIds.length = plan.openedConflicts.length ∧
    contextRevisionContentHash hasher.toContentHasher
      (contextRevisionAsDraft plan.resultRevision) = plan.confirmation.finalContentHash

instance (plan : CandidateConfirmationPlan) : Decidable (plan.identitiesConsistent hasher) := by
  unfold identitiesConsistent
  infer_instance

def allEventIds (plan : CandidateConfirmationPlan) : List EventId :=
  [plan.eventIds.contextRevisionEventId, plan.eventIds.spaceAssociationEventId,
    plan.eventIds.publicationEventId, plan.eventIds.confirmationEventId] ++
    plan.eventIds.spaceCreatedEventId.toList ++ plan.eventIds.engineeringReferenceEventIds ++
    plan.eventIds.semanticConflictEventIds

/-- All local identities and causal references of the reserved closure. -/
def validate (plan : CandidateConfirmationPlan) : Result Unit := do
  plan.operation.validate
  Result.require (plan.identitiesConsistent hasher)
    (invalid "Candidate Confirmation plan fact identities are inconsistent")
  plan.resultRevision.validate
  plan.spaceAssociation.validate
  plan.publication.validate
  validatePlanReferences [] plan.engineeringReferences
  plan.validateOpenings [] [] plan.openedConflicts
  plan.confirmation.validate
  Result.require
    (plan.eventIds.spaceCreatedEventId = plan.confirmation.causalRefs.spaceCreatedEventId ∧
      plan.eventIds.contextRevisionEventId =
        plan.confirmation.causalRefs.contextRevisionEventId ∧
      plan.eventIds.spaceAssociationEventId =
        plan.confirmation.causalRefs.spaceAssociationEventId ∧
      plan.eventIds.publicationEventId = plan.confirmation.causalRefs.publicationEventId)
    (invalid "Candidate Confirmation plan Event identities are inconsistent")
  match plan.newSpace, plan.confirmation.createdSpaceId with
  | some space, some created =>
      Result.require (space.spaceId = created)
        (invalid "Candidate Confirmation plan new Space identity is inconsistent")
      space.intentRevision.validate
  | none, none => pure ()
  | _, _ => throw (invalid "Candidate Confirmation plan new Space identity is inconsistent")
  requireUnique plan.allEventIds "candidate_confirmation_plan.event_ids"

end CandidateConfirmationPlan

end SharedContext
