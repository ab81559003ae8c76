import SharedContext.Domain.ConfirmationPlan

/-!
# Reserving a confirmation plan

`reserve` turns one Candidate, the reviewed operation on it and the resolved
selection into the complete plan.  The identities that the source generates on
the way are handed in as `ReservedIds`.
-/

namespace SharedContext

/-! ### Drafts -/

/-- An engineering observation before it has an identity. -/
structure EngineeringReferenceDraft where
  repositoryId : RepositoryId
  artifactKind : ArtifactKind
  relation : ReferenceRelation
  locator : ArtifactLocator
  supports : String
  limitations : List String
  deriving DecidableEq, Repr

/-- The observation under an identity. -/
def EngineeringReferenceDraft.withId (draft : EngineeringReferenceDraft)
    (referenceId : ReferenceId) : EngineeringReference where
  referenceId := referenceId
  repositoryId := draft.repositoryId
  artifactKind := draft.artifactKind
  relation := draft.relation
  locator := draft.locator
  supports := draft.supports
  limitations := draft.limitations

def EngineeringReference.fromDraft (referenceId : ReferenceId)
    (draft : EngineeringReferenceDraft) : Result EngineeringReference := do
  (draft.withId referenceId).validate
  pure (draft.withId referenceId)

def EvidenceSnapshot.fromDraft (evidenceId : EvidenceId) (draft : EvidenceSnapshotDraft) :
    EvidenceSnapshot where
  evidenceId := evidenceId
  kind := draft.kind
  supports := draft.supports
  content := draft.content
  interpretation := draft.interpretation
  limitations := draft.limitations

def ContextRevision.fromDraft (revisionId : RevisionId) (evidenceId : Nat → EvidenceId)
    (parentRevisionIds : List RevisionId) (draft : ContextRevisionDraft) :
    Result ContextRevision := do
  draft.validate
  requireUnique parentRevisionIds "revision.parent_revision_ids"
  pure
    { revisionId := revisionId
      parentRevisionIds := parentRevisionIds
      kind := draft.kind
      topicKey := draft.topicKey
      problemView := draft.problemView
      statement := draft.statement
      rationale := draft.rationale
      applicability := draft.applicability
      assumptions := draft.assumptions
      recheckWhen := draft.recheckWhen
      hints := draft.hints
      relations := draft.relations
      evidence := draft.evidence.mapIdx fun index evidence =>
        EvidenceSnapshot.fromDraft (evidenceId index) evidence }

/-- The other accepted side of a semantic conflict this confirmation must open. -/
structure SemanticConflictOpeningDraft where
  target : ConflictParticipant
  reason : String
  deriving DecidableEq, Repr

/-! ### The request -/

/-- Where the confirmed Context goes: an existing Space or a new one. -/
inductive CandidatePrimarySelection
  | existing (spaceId : SpaceId)
  | proposedNew (intent : IntentSnapshot)
  deriving DecidableEq, Repr

def CandidatePrimarySelection.validate : CandidatePrimarySelection → Result Unit
  | .existing _ => pure ()
  | .proposedNew intent => intent.validate

/-- The Space of the selection, when it exists already. -/
def CandidatePrimarySelection.spaceId? : CandidatePrimarySelection → Option SpaceId
  | .existing spaceId => some spaceId
  | .proposedNew _ => none

/-- Pure confirmation input without any generated identity. -/
structure CandidateConfirmationRequest where
  candidateId : CandidateId
  primary : CandidatePrimarySelection
  relatedSpaceIds : List SpaceId
  edits : OptionalCandidateEdits

local instance lawfulBEq_relatedSpace : LawfulBEq SpaceId := inferInstance

/-- Check the selection and produce the complete Candidate content. -/
def CandidateConfirmationRequest.finalDraft (request : CandidateConfirmationRequest)
    (candidate : ContextCandidate) : Result ContextRevisionDraft := do
  Result.require (request.candidateId = candidate.candidateId)
    (invalid "Candidate Confirmation request names a different Candidate")
  request.primary.validate
  requireUnique request.relatedSpaceIds "candidate_confirmation.related_space_ids"
  Result.require (∀ spaceId ∈ request.primary.spaceId?, spaceId ∉ request.relatedSpaceIds)
    (invalid "Candidate Confirmation Related Spaces must not include Primary")
  request.edits.apply candidate.content

/-! ### Reservation -/

/-- The identities generated for one plan; a family provides one per item. -/
structure ReservedIds where
  revisionId : RevisionId
  evidenceId : Nat → EvidenceId
  contextId : ContextId
  referenceId : Nat → ReferenceId
  referenceEventId : Nat → EventId
  spaceId : SpaceId
  intentRevisionId : RevisionId
  spaceCreatedEventId : EventId
  contextRevisionEventId : EventId
  spaceAssociationEventId : EventId
  publicationEventId : EventId
  confirmationEventId : EventId
  associationId : SpaceAssociationId
  publicationId : PublicationId
  conflictId : Nat → ConflictId
  conflictEventId : Nat → EventId
  confirmationId : ConfirmationId

/-- Whether the reviewed reference and the resolved selection agree. -/
def primaryAgrees : CandidateConfirmationPrimaryReference → CandidatePrimarySelection → Bool
  | .existingSpace expected, .existing actual => expected = actual
  | .proposedRecommendation _, .proposedNew _ => true
  | _, _ => false

def checkReferenceDrafts (before : List EngineeringReferenceDraft) :
    List EngineeringReferenceDraft → Result Unit
  | [] => pure ()
  | draft :: rest => do
      (draft.withId ⟨0⟩).validate
      Result.require (draft ∉ before)
        (invalid "Candidate Confirmation Engineering References must not contain duplicates")
      checkReferenceDrafts (before ++ [draft]) rest

def reserveReferences (referenceId : Nat → ReferenceId) (index : Nat) :
    List EngineeringReferenceDraft → Result (List EngineeringReference)
  | [] => pure []
  | draft :: rest => do
      let reference ← EngineeringReference.fromDraft (referenceId index) draft
      let references ← reserveReferences referenceId (index + 1) rest
      pure (reference :: references)

/-- The conflict a confirming revision opens against one target. -/
def openedConflict (source : ConflictParticipant) (applicability : Applicability)
    (conflictId : ConflictId) (opening : SemanticConflictOpeningDraft) : SemanticConflict where
  conflictId := conflictId
  participants := [source, opening.target]
  reason := opening.reason
  applicability := applicability

local instance lawfulBEq_conflictTarget : LawfulBEq ContextId := inferInstance

/-- Open the conflicts in order; no target repeats one of those before. -/
def reserveConflicts (source : ConflictParticipant) (applicability : Applicability)
    (spaceId : SpaceId) (conflictId : Nat → ConflictId) (index : Nat)
    (targets : List ContextId) :
    List SemanticConflictOpeningDraft → Result (List SemanticConflictOpening)
  | [] => pure []
  | opening :: rest => do
      Result.require
        (opening.target.contextId ≠ source.contextId ∧
          opening.target.publicationId ≠ source.publicationId)
        (invalid
          "Candidate Confirmation conflict target must be a different accepted Context")
      Result.require (opening.target.contextId ∉ targets)
        (invalid "Candidate Confirmation conflict targets must not contain duplicates")
      let conflict := openedConflict source applicability (conflictId index) opening
      conflict.validate
      let openings ← reserveConflicts source applicability spaceId conflictId (index + 1)
        (opening.target.contextId :: targets) rest
      pure (⟨spaceId, conflict⟩ :: openings)

/-- The primary Space, and the new Space fact when the selection proposes one.
A proposed Space starts provisional: no human has named it yet. -/
def resolvePrimary (ids : ReservedIds) :
    CandidatePrimarySelection → SpaceId × Option CandidateConfirmationNewSpace
  | .existing spaceId => (spaceId, none)
  | .proposedNew intent =>
      (ids.spaceId,
        some ⟨ids.spaceId,
          { revisionId := ids.intentRevisionId
            parentRevisionIds := []
            intent := intent
            provisional := true }⟩)

variable (hasher : PlanHasher)

namespace CandidateConfirmationPlan

/-- Generates every stable identity and causal reference for one confirmation. -/
def reserve (ids : ReservedIds) (candidate : ContextCandidate)
    (operation : CandidateConfirmationOperation) (resolvedPrimary : CandidatePrimarySelection)
    (engineeringReferenceDrafts : List EngineeringReferenceDraft)
    (conflictOpenings : List SemanticConflictOpeningDraft) :
    Result CandidateConfirmationPlan := do
  operation.validate
  Result.require (operation.candidateId = candidate.candidateId)
    (invalid "Candidate Confirmation operation names a different Candidate")
  Result.require (primaryAgrees operation.primary resolvedPrimary = true)
    (invalid "Candidate Confirmation primary reference and resolved selection disagree")
  let request : CandidateConfirmationRequest :=
    { candidateId := operation.candidateId
      primary := resolvedPrimary
      relatedSpaceIds := operation.relatedSpaceIds
      edits := operation.edits }
  let finalDraft ← request.finalDraft candidate
  let resultRevision ← ContextRevision.fromDraft ids.revisionId ids.evidenceId [] finalDraft
  checkReferenceDrafts [] engineeringReferenceDrafts
  let engineeringReferences ← reserveReferences ids.referenceId 0 engineeringReferenceDrafts
  let engineeringReferenceEventIds :=
    engineeringReferences.mapIdx fun index _ => ids.referenceEventId index
  let (primarySpaceId, newSpace) := resolvePrimary ids resolvedPrimary
  let spaceCreatedEventId := newSpace.map fun _ => ids.spaceCreatedEventId
  let spaceAssociation : ContextSpaceAssociation :=
    { associationId := ids.associationId
      contextId := ids.contextId
      primarySpaceId := primarySpaceId
      relatedSpaceIds := operation.relatedSpaceIds
      previousAssociationIds := []
      origin := .candidateConfirmation candidate.candidateId }
  spaceAssociation.validate
  let publication : Publication :=
    { publicationId := ids.publicationId
      previousPublicationIds := []
      action := .publish
      revisionId := resultRevision.revisionId
      reviewEventIds := [] }
  publication.validate
  let openedConflicts ← reserveConflicts
    ⟨ids.contextId, resultRevision.revisionId, publication.publicationId⟩
    resultRevision.applicability primarySpaceId ids.conflictId 0 [] conflictOpenings
  let semanticConflictEventIds :=
    openedConflicts.mapIdx fun index _ => ids.conflictEventId index
  let confirmation : CandidateConfirmation :=
    { confirmationId := ids.confirmationId
      candidateId := candidate.candidateId
      submissionId := candidate.submissionId
      sourceEpisode := candidate.sourceEpisode
      resultContextId := ids.contextId
      resultRevisionId := resultRevision.revisionId
      primarySpaceId := primarySpaceId
      relatedSpaceIds := operation.relatedSpaceIds
      spaceAssociationId := spaceAssociation.associationId
      publicationId := publication.publicationId
      createdSpaceId := newSpace.map CandidateConfirmationNewSpace.spaceId
      edits := operation.edits
      finalContentHash := contextRevisionContentHash hasher.toContentHasher finalDraft
      causalRefs :=
        { spaceCreatedEventId := spaceCreatedEventId
          contextRevisionEventId := ids.contextRevisionEventId
          spaceAssociationEventId := ids.spaceAssociationEventId
          publicationEventId := ids.publicationEventId
          engineeringReferenceEventIds := engineeringReferenceEventIds } }
  confirmation.validate
  let plan : CandidateConfirmationPlan :=
    { operation := operation
      operationHash := operation.hash hasher
      newSpace := newSpace
      resultContextId := ids.contextId
      resultRevision := resultRevision
      spaceAssociation := spaceAssociation
      publication := publication
      engineeringReferences := engineeringReferences
      openedConflicts := openedConflicts
      confirmation := confirmation
      eventIds :=
        { spaceCreatedEventId := spaceCreatedEventId
          contextRevisionEventId := ids.contextRevisionEventId
          spaceAssociationEventId := ids.spaceAssociationEventId
          publicationEventId := ids.publicationEventId
          engineeringReferenceEventIds := engineeringReferenceEventIds
          semanticConflictEventIds := semanticConflictEventIds
          confirmationEventId := ids.confirmationEventId } }
  plan.validate hasher
  pure plan

/-! ### What a reserved plan holds -/

/-- A plan reserved for a Candidate: its final content, its parentless facts
and the conflicts it opens. -/
structure ReservedFor (plan : CandidateConfirmationPlan) (candidate : ContextCandidate)
    (selection : CandidatePrimarySelection) (openings : List SemanticConflictOpeningDraft) :
    Prop where
  validated : plan.validate hasher = .ok ()
  content : plan.confirmation.edits.apply candidate.content =
    .ok (contextRevisionAsDraft plan.resultRevision)
  candidateId : plan.confirmation.candidateId = candidate.candidateId
  submissionId : plan.confirmation.submissionId = candidate.submissionId
  sourceEpisode : plan.confirmation.sourceEpisode = candidate.sourceEpisode
  primary : ∀ spaceId ∈ selection.spaceId?,
    plan.confirmation.primarySpaceId = spaceId ∧ plan.newSpace = none
  creates : selection.spaceId? = none → ∃ newSpace ∈ plan.newSpace,
    plan.confirmation.primarySpaceId = newSpace.spaceId ∧
      newSpace.intentRevision.parentRevisionIds = []
  created : plan.confirmation.createdSpaceId =
    plan.newSpace.map CandidateConfirmationNewSpace.spaceId
  creation : plan.eventIds.spaceCreatedEventId.isSome = plan.newSpace.isSome
  revision : plan.resultRevision.parentRevisionIds = []
  association : plan.spaceAssociation.previousAssociationIds = [] ∧
    plan.spaceAssociation.origin = .candidateConfirmation candidate.candidateId
  publication : plan.publication.previousPublicationIds = [] ∧
    plan.publication.action = .publish ∧ plan.publication.reviewEventIds = []
  conflicts : List.Forall₂ (fun opening draft =>
      opening.spaceId = plan.confirmation.primarySpaceId ∧
        opening.conflict = openedConflict
          ⟨plan.resultContextId, plan.resultRevision.revisionId, plan.publication.publicationId⟩
          plan.resultRevision.applicability opening.conflict.conflictId draft)
    plan.openedConflicts openings

end CandidateConfirmationPlan

theorem asDraft_fromDraft {revisionId : RevisionId} {evidenceId : Nat → EvidenceId}
    {parents : List RevisionId} {draft : ContextRevisionDraft} {revision : ContextRevision}
    (built : ContextRevision.fromDraft revisionId evidenceId parents draft = .ok revision) :
    contextRevisionAsDraft revision = draft ∧ revision.parentRevisionIds = parents := by
  simp only [ContextRevision.fromDraft, Result.bind_eq_ok, Result.exists_unit,
    Result.pure_eq_ok] at built
  obtain ⟨-, -, rfl⟩ := built
  refine ⟨?_, rfl⟩
  have sameEvidence : (draft.evidence.mapIdx fun index evidence =>
      EvidenceSnapshot.fromDraft (evidenceId index) evidence).map EvidenceSnapshot.asDraft =
        draft.evidence := by
    rw [List.mapIdx_eq_zipIdx_map, List.map_map]
    exact List.zipIdx_map_fst 0 draft.evidence
  simp only [contextRevisionAsDraft, sameEvidence]

theorem reserveConflicts_eq_ok {source : ConflictParticipant} {applicability : Applicability}
    {spaceId : SpaceId} {conflictId : Nat → ConflictId} {index : Nat} {targets : List ContextId}
    {drafts : List SemanticConflictOpeningDraft} {openings : List SemanticConflictOpening}
    (reserved : reserveConflicts source applicability spaceId conflictId index targets drafts =
      .ok openings) :
    List.Forall₂ (fun opening draft => opening.spaceId = spaceId ∧
      opening.conflict = openedConflict source applicability opening.conflict.conflictId draft)
      openings drafts := by
  induction drafts generalizing index targets openings with
  | nil =>
      cases Result.pure_eq_ok.mp reserved
      exact .nil
  | cons draft drafts ih =>
      simp only [reserveConflicts, Result.bind_eq_ok, Result.exists_unit,
        Result.pure_eq_ok] at reserved
      obtain ⟨-, -, -, rest, isRest, rfl⟩ := reserved
      exact .cons ⟨rfl, rfl⟩ (ih isRest)

theorem CandidateConfirmationPlan.reservedFor {ids : ReservedIds} {candidate : ContextCandidate}
    {operation : CandidateConfirmationOperation} {selection : CandidatePrimarySelection}
    {references : List EngineeringReferenceDraft}
    {openings : List SemanticConflictOpeningDraft} {plan : CandidateConfirmationPlan}
    (reserved : reserve hasher ids candidate operation selection references openings = .ok plan) :
    plan.ReservedFor hasher candidate selection openings := by
  simp only [reserve, Result.bind_eq_ok, Result.exists_unit, Result.require_eq_ok,
    Result.pure_eq_ok] at reserved
  obtain ⟨-, sameCandidate, -, finalDraft, isFinal, revision, isRevision, -, engineering, -, -,
    -, opened, isOpened, -, validated, rfl⟩ := reserved
  simp only [CandidateConfirmationRequest.finalDraft, Result.bind_eq_ok, Result.exists_unit,
    Result.require_eq_ok] at isFinal
  obtain ⟨-, -, -, -, applied⟩ := isFinal
  obtain ⟨sameDraft, noParents⟩ := asDraft_fromDraft isRevision
  refine ⟨validated, ?_, rfl, rfl, rfl, ?_, ?_, rfl, ?_, noParents, ⟨rfl, rfl⟩,
    ⟨rfl, rfl, rfl⟩, reserveConflicts_eq_ok isOpened⟩
  · rw [sameDraft]
    exact applied
  · intro spaceId isExisting
    cases selection with
    | existing other =>
        cases isExisting
        exact ⟨rfl, rfl⟩
    | proposedNew intent => cases isExisting
  · intro isNew
    cases selection with
    | existing other => cases isNew
    | proposedNew intent => exact ⟨_, rfl, rfl, rfl⟩
  · cases selection <;> rfl

end SharedContext
