import SharedContext.Domain.Confirmation

/-!
# Event payloads

The closed set of V1 payloads and the payload-local checks of event parsing.
The reducer's own payload type repeats the schema's constructor by
constructor, so one type serves both.
-/

namespace SharedContext

inductive EventPayload
  | contextCandidateCreated (candidate : ContextCandidate)
  | candidateConfirmed (confirmation : CandidateConfirmation)
  | spaceCreated (spaceId : SpaceId) (intentRevision : IntentRevision)
  | spaceIntentRevisionAdded (spaceId : SpaceId) (intentRevision : IntentRevision)
  | contextRevisionAdded (spaceId : SpaceId) (contextId : ContextId) (revision : ContextRevision)
  | contextReviewed (spaceId : SpaceId) (contextId : ContextId) (review : Review)
  | contextPublicationChanged (spaceId : SpaceId) (contextId : ContextId)
      (publication : Publication)
  | contextSpaceAssociationChanged (association : ContextSpaceAssociation)
  | semanticConflictOpened (spaceId : SpaceId) (conflict : SemanticConflict)
  | semanticConflictResolutionAdded (spaceId : SpaceId) (conflictId : ConflictId)
      (resolution : ConflictResolution)
  | engineeringReferenceRecorded (contextId : ContextId) (revisionId : RevisionId)
      (reference : EngineeringReference)

def EventPayload.validate : EventPayload → Result Unit
  | .contextCandidateCreated candidate => candidate.validate
  | .candidateConfirmed confirmation => confirmation.validate
  | .spaceCreated _ intentRevision => do
      if !intentRevision.parentRevisionIds.isEmpty then
        throw (invalid "space.created intent_revision.parent_revision_ids must be empty")
      intentRevision.validate
  | .spaceIntentRevisionAdded _ intentRevision => do
      if intentRevision.parentRevisionIds.isEmpty then
        throw (invalid "space.intent_revision_added must reference at least one parent revision")
      intentRevision.validate
  | .contextRevisionAdded _ _ revision => revision.validate
  | .contextReviewed _ _ review => review.validate
  | .contextPublicationChanged _ _ publication => publication.validate
  | .contextSpaceAssociationChanged association => association.validate
  | .semanticConflictOpened _ conflict => conflict.validate
  | .semanticConflictResolutionAdded _ _ resolution => resolution.validate
  | .engineeringReferenceRecorded _ _ reference => reference.validate

/-- The payload type the reducer reads. -/
abbrev ReducerPayload := EventPayload

/-- Authoritative event input understood by the reducer. -/
structure ReducerEvent where
  eventId : EventId
  payload : ReducerPayload

/-- An event that passes the schema check. -/
def ReducerEvent.SchemaValid (event : ReducerEvent) : Prop :=
  event.payload.validate = .ok ()

instance : DecidablePred ReducerEvent.SchemaValid :=
  fun event => inferInstanceAs (Decidable (event.payload.validate = .ok ()))

end SharedContext
