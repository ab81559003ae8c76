import SharedContext.Reducer.Projection

/-!
# Definition tables

The first pass of the reducer groups the events by every identity they
define.  Later phases read a definition list only after testing that it has
exactly one element, so they work on the tables of unique definitions in
`Facts`; lists with several elements only produce duplicate diagnostics.
-/

namespace SharedContext

structure IntentNode where
  eventId : EventId
  spaceId : SpaceId
  revision : IntentRevision

structure CandidateNode where
  eventId : EventId
  candidate : ContextCandidate

structure CandidateConfirmationNode where
  eventId : EventId
  confirmation : CandidateConfirmation

structure ContextSpaceAssociationNode where
  eventId : EventId
  association : ContextSpaceAssociation

structure ContextNode where
  eventId : EventId
  spaceId : SpaceId
  contextId : ContextId
  revision : ContextRevision

structure ReviewNode where
  eventId : EventId
  spaceId : SpaceId
  contextId : ContextId
  review : Review

structure PublicationNode where
  eventId : EventId
  spaceId : SpaceId
  contextId : ContextId
  publication : Publication

structure ConflictNode where
  eventId : EventId
  spaceId : SpaceId
  conflict : SemanticConflict

structure ResolutionNode where
  eventId : EventId
  spaceId : SpaceId
  conflictId : ConflictId
  resolution : ConflictResolution

structure EngineeringReferenceNode where
  eventId : EventId
  contextId : ContextId
  revisionId : RevisionId
  reference : EngineeringReference

/-! ### What one event adds to each table -/

def candidateEntry (event : ReducerEvent) : Option (CandidateId × CandidateNode) :=
  match event.payload with
  | .contextCandidateCreated candidate =>
      some (candidate.candidateId, ⟨event.eventId, candidate⟩)
  | _ => none

def submissionEntry (event : ReducerEvent) : Option (SubmissionId × CandidateNode) :=
  match event.payload with
  | .contextCandidateCreated candidate =>
      some (candidate.submissionId, ⟨event.eventId, candidate⟩)
  | _ => none

def confirmationEntry (event : ReducerEvent) :
    Option (ConfirmationId × CandidateConfirmationNode) :=
  match event.payload with
  | .candidateConfirmed confirmation =>
      some (confirmation.confirmationId, ⟨event.eventId, confirmation⟩)
  | _ => none

def confirmationByCandidateEntry (event : ReducerEvent) :
    Option (CandidateId × CandidateConfirmationNode) :=
  match event.payload with
  | .candidateConfirmed confirmation =>
      some (confirmation.candidateId, ⟨event.eventId, confirmation⟩)
  | _ => none

def associationEntry (event : ReducerEvent) :
    Option (SpaceAssociationId × ContextSpaceAssociationNode) :=
  match event.payload with
  | .contextSpaceAssociationChanged association =>
      some (association.associationId, ⟨event.eventId, association⟩)
  | _ => none

def spaceCreationEntry (event : ReducerEvent) : Option (SpaceId × IntentNode) :=
  match event.payload with
  | .spaceCreated spaceId intentRevision =>
      some (spaceId, ⟨event.eventId, spaceId, intentRevision⟩)
  | _ => none

def intentEntry (event : ReducerEvent) : Option (RevisionId × IntentNode) :=
  match event.payload with
  | .spaceCreated spaceId intentRevision
  | .spaceIntentRevisionAdded spaceId intentRevision =>
      some (intentRevision.revisionId, ⟨event.eventId, spaceId, intentRevision⟩)
  | _ => none

def contextEntry (event : ReducerEvent) : Option (RevisionId × ContextNode) :=
  match event.payload with
  | .contextRevisionAdded spaceId contextId revision =>
      some (revision.revisionId, ⟨event.eventId, spaceId, contextId, revision⟩)
  | _ => none

def evidenceEntries (event : ReducerEvent) : List (EvidenceId × EventId) :=
  match event.payload with
  | .contextRevisionAdded _ _ revision =>
      revision.evidence.map fun evidence => (evidence.evidenceId, event.eventId)
  | _ => []

def reviewEntry (event : ReducerEvent) : Option (ReviewId × ReviewNode) :=
  match event.payload with
  | .contextReviewed spaceId contextId review =>
      some (review.reviewId, ⟨event.eventId, spaceId, contextId, review⟩)
  | _ => none

def publicationEntry (event : ReducerEvent) : Option (PublicationId × PublicationNode) :=
  match event.payload with
  | .contextPublicationChanged spaceId contextId publication =>
      some (publication.publicationId, ⟨event.eventId, spaceId, contextId, publication⟩)
  | _ => none

def conflictEntry (event : ReducerEvent) : Option (ConflictId × ConflictNode) :=
  match event.payload with
  | .semanticConflictOpened spaceId conflict =>
      some (conflict.conflictId, ⟨event.eventId, spaceId, conflict⟩)
  | _ => none

def resolutionEntry (event : ReducerEvent) : Option (ResolutionId × ResolutionNode) :=
  match event.payload with
  | .semanticConflictResolutionAdded spaceId conflictId resolution =>
      some (resolution.resolutionId, ⟨event.eventId, spaceId, conflictId, resolution⟩)
  | _ => none

def referenceEntry (event : ReducerEvent) : Option (ReferenceId × EngineeringReferenceNode) :=
  match event.payload with
  | .engineeringReferenceRecorded contextId revisionId reference =>
      some (reference.referenceId, ⟨event.eventId, contextId, revisionId, reference⟩)
  | _ => none

def ownerEntries (event : ReducerEvent) : List (ContextId × SpaceId) :=
  match event.payload with
  | .contextRevisionAdded spaceId contextId _
  | .contextReviewed spaceId contextId _
  | .contextPublicationChanged spaceId contextId _ => [(contextId, spaceId)]
  | .semanticConflictOpened spaceId conflict =>
      conflict.participants.map fun participant => (participant.contextId, spaceId)
  | .semanticConflictResolutionAdded spaceId _ resolution =>
      resolution.results.map fun result => (result.contextId, spaceId)
  | _ => []

/-! ### The tables -/

/-- The definition tables of the first pass. -/
structure Definitions where
  eventsById : BTreeMap EventId (List ReducerEvent)
  candidates : BTreeMap CandidateId (List CandidateNode)
  submissions : BTreeMap SubmissionId (List CandidateNode)
  confirmations : BTreeMap ConfirmationId (List CandidateConfirmationNode)
  confirmationsByCandidate : BTreeMap CandidateId (List CandidateConfirmationNode)
  associations : BTreeMap SpaceAssociationId (List ContextSpaceAssociationNode)
  spaceCreations : BTreeMap SpaceId (List IntentNode)
  intents : BTreeMap RevisionId (List IntentNode)
  contexts : BTreeMap RevisionId (List ContextNode)
  reviews : BTreeMap ReviewId (List ReviewNode)
  publications : BTreeMap PublicationId (List PublicationNode)
  conflicts : BTreeMap ConflictId (List ConflictNode)
  resolutions : BTreeMap ResolutionId (List ResolutionNode)
  references : BTreeMap ReferenceId (List EngineeringReferenceNode)
  evidence : BTreeMap EvidenceId (List EventId)
  contextOwners : BTreeMap ContextId (Finset SpaceId)

def collectDefinitions (events : List ReducerEvent) : Definitions where
  eventsById := .group (events.map fun event => (event.eventId, event))
  candidates := .group (events.filterMap candidateEntry)
  submissions := .group (events.filterMap submissionEntry)
  confirmations := .group (events.filterMap confirmationEntry)
  confirmationsByCandidate := .group (events.filterMap confirmationByCandidateEntry)
  associations := .group (events.filterMap associationEntry)
  spaceCreations := .group (events.filterMap spaceCreationEntry)
  intents := .group (events.filterMap intentEntry)
  contexts := .group (events.filterMap contextEntry)
  reviews := .group (events.filterMap reviewEntry)
  publications := .group (events.filterMap publicationEntry)
  conflicts := .group (events.filterMap conflictEntry)
  resolutions := .group (events.filterMap resolutionEntry)
  references := .group (events.filterMap referenceEntry)
  evidence := .group (events.flatMap evidenceEntries)
  contextOwners := (BTreeMap.group (events.flatMap ownerEntries)).map List.toFinset

/-! ### Duplicate definitions -/

section Duplicates

variable {kind : IdKind} {ν : Type}

def eventIds (definitions : List ν) (get : ν → EventId) : Finset EventId :=
  (definitions.map get).toFinset

/-- The entries with `definitions.len() > 1`. -/
def duplicated (table : BTreeMap (OpaqueId kind) (List ν)) :
    BTreeMap (OpaqueId kind) (List ν) :=
  table.filter fun _ definitions => definitions.length > 1

/-- The events that define an identity defined several times. -/
def duplicateEventIds (table : BTreeMap (OpaqueId kind) (List ν)) (get : ν → EventId) :
    Finset EventId :=
  (duplicated table).flatMap fun _ definitions => eventIds definitions get

/-- One diagnostic for every identity defined several times. -/
def duplicateDiagnostics (code : ReducerDiagnosticCode) (message : OpaqueId kind → String)
    (table : BTreeMap (OpaqueId kind) (List ν)) (get : ν → EventId) :
    Finset ReducerDiagnostic :=
  (duplicated table).flatMap fun id definitions =>
    {⟨code, toString id, eventIds definitions get, message id⟩}

end Duplicates

/-- Revision IDs defined both by an Intent and by a Context. -/
def crossKindRevisions (definitions : Definitions) : BTreeMap RevisionId (Finset EventId) :=
  definitions.intents.filterMap fun id intentNodes =>
    (definitions.contexts.get? id).map fun contextNodes =>
      eventIds intentNodes IntentNode.eventId ∪ eventIds contextNodes ContextNode.eventId

/-- The events whose definitions the later phases leave out.  Duplicate
engineering references and Space creations are diagnosed but not in this set. -/
def invalidEventIds (definitions : Definitions) : Finset EventId :=
  (duplicated definitions.eventsById).keys ∪
  duplicateEventIds definitions.intents IntentNode.eventId ∪
  duplicateEventIds definitions.candidates CandidateNode.eventId ∪
  duplicateEventIds definitions.submissions CandidateNode.eventId ∪
  duplicateEventIds definitions.confirmations CandidateConfirmationNode.eventId ∪
  duplicateEventIds definitions.confirmationsByCandidate CandidateConfirmationNode.eventId ∪
  duplicateEventIds definitions.associations ContextSpaceAssociationNode.eventId ∪
  duplicateEventIds definitions.contexts ContextNode.eventId ∪
  (crossKindRevisions definitions).flatMap (fun _ ids => ids) ∪
  duplicateEventIds definitions.reviews ReviewNode.eventId ∪
  duplicateEventIds definitions.publications PublicationNode.eventId ∪
  duplicateEventIds definitions.evidence id ∪
  duplicateEventIds definitions.conflicts ConflictNode.eventId ∪
  duplicateEventIds definitions.resolutions ResolutionNode.eventId

def definitionDiagnostics (definitions : Definitions) : Finset ReducerDiagnostic :=
  (duplicated definitions.eventsById).flatMap (fun id _ =>
    {⟨.duplicateEventId, toString id, {id}, s!"event ID {id} has multiple definitions"⟩}) ∪
  duplicateDiagnostics .duplicateRevisionId
    (fun id => s!"revision ID {id} has multiple definitions")
    definitions.intents IntentNode.eventId ∪
  duplicateDiagnostics .duplicateCandidateId
    (fun id => s!"candidate ID {id} has multiple definitions")
    definitions.candidates CandidateNode.eventId ∪
  duplicateDiagnostics .duplicateSubmissionId
    (fun id => s!"submission ID {id} has multiple Candidate definitions")
    definitions.submissions CandidateNode.eventId ∪
  duplicateDiagnostics .duplicateConfirmationId
    (fun id => s!"confirmation ID {id} has multiple definitions")
    definitions.confirmations CandidateConfirmationNode.eventId ∪
  duplicateDiagnostics .candidateConfirmationConflict
    (fun id =>
      s!"candidate {id} has multiple Confirmation Events; no result is selected")
    definitions.confirmationsByCandidate CandidateConfirmationNode.eventId ∪
  duplicateDiagnostics .duplicateSpaceAssociationId
    (fun id => s!"Space Association ID {id} has multiple definitions")
    definitions.associations ContextSpaceAssociationNode.eventId ∪
  duplicateDiagnostics .duplicateRevisionId
    (fun id => s!"revision ID {id} has multiple definitions")
    definitions.contexts ContextNode.eventId ∪
  (crossKindRevisions definitions).flatMap (fun id ids =>
    {⟨.duplicateRevisionId, toString id, ids,
      s!"revision ID {id} is defined by multiple aggregate kinds"⟩}) ∪
  duplicateDiagnostics .duplicateReviewId
    (fun id => s!"review ID {id} has multiple definitions")
    definitions.reviews ReviewNode.eventId ∪
  duplicateDiagnostics .duplicatePublicationId
    (fun id => s!"publication ID {id} has multiple definitions")
    definitions.publications PublicationNode.eventId ∪
  duplicateDiagnostics .duplicateEvidenceId
    (fun id => s!"evidence ID {id} has multiple definitions")
    definitions.evidence id ∪
  duplicateDiagnostics .duplicateConflictId
    (fun id => s!"conflict ID {id} has multiple definitions")
    definitions.conflicts ConflictNode.eventId ∪
  duplicateDiagnostics .duplicateResolutionId
    (fun id => s!"resolution ID {id} has multiple definitions")
    definitions.resolutions ResolutionNode.eventId ∪
  duplicateDiagnostics .duplicateReferenceId
    (fun id => s!"engineering reference ID {id} has multiple definitions")
    definitions.references EngineeringReferenceNode.eventId ∪
  duplicateDiagnostics .duplicateSpaceCreation
    (fun id => s!"space {id} has multiple creation events")
    definitions.spaceCreations IntentNode.eventId

/-! ### What the later phases read -/

/-- The unique definitions, the Context owners and the invalid events. -/
structure Facts where
  invalidEventIds : Finset EventId
  contextOwners : BTreeMap ContextId (Finset SpaceId)
  associationContextIds : Finset ContextId
  candidates : BTreeMap CandidateId CandidateNode
  submissions : BTreeMap SubmissionId CandidateNode
  confirmationsByCandidate : BTreeMap CandidateId CandidateConfirmationNode
  associations : BTreeMap SpaceAssociationId ContextSpaceAssociationNode
  spaceCreations : BTreeMap SpaceId IntentNode
  intents : BTreeMap RevisionId IntentNode
  contexts : BTreeMap RevisionId ContextNode
  reviews : BTreeMap ReviewId ReviewNode
  publications : BTreeMap PublicationId PublicationNode
  conflicts : BTreeMap ConflictId ConflictNode
  resolutions : BTreeMap ResolutionId ResolutionNode
  references : BTreeMap ReferenceId EngineeringReferenceNode

def Definitions.facts (definitions : Definitions) : Facts where
  invalidEventIds := SharedContext.invalidEventIds definitions
  contextOwners := definitions.contextOwners
  associationContextIds := definitions.associations.flatMap fun _ nodes =>
    (nodes.map fun node => node.association.contextId).toFinset
  candidates := definitions.candidates.unique
  submissions := definitions.submissions.unique
  confirmationsByCandidate := definitions.confirmationsByCandidate.unique
  associations := definitions.associations.unique
  spaceCreations := definitions.spaceCreations.unique
  intents := definitions.intents.unique
  contexts := definitions.contexts.unique
  reviews := definitions.reviews.unique
  publications := definitions.publications.unique
  conflicts := definitions.conflicts.unique
  resolutions := definitions.resolutions.unique
  references := definitions.references.unique

/-- The facts of an event list. -/
abbrev factsOf (events : List ReducerEvent) : Facts :=
  (collectDefinitions events).facts

end SharedContext
