import SharedContext.Reducer.Restriction

/-!
# The projection of an independent part

The projected maps of an independent part are the restrictions of the
projected maps of the whole list, down to governance, lifecycle, injection
eligibility and the status of semantic conflicts.
-/

namespace SharedContext

variable {mine : Set AnyId} {whole part : List ReducerEvent} (isPart : Part mine whole part)
include isPart

/-! ### Association heads -/

theorem Part.associationContextIds {contextId : ContextId} :
    contextId ∈ (factsOf part).associationContextIds ↔
      contextId ∈ (factsOf whole).associationContextIds ∧ contextId.any ∈ mine := by
  rw [mem_associationContextIds, mem_associationContextIds]
  have named : ∀ node : ContextSpaceAssociationNode,
      node.contextId.any ∈ node.event.identifiers := fun node => by
    simp [ReducerEvent.identifiers, ContextSpaceAssociationNode.event, EventPayload.identifiers,
      ContextSpaceAssociationNode.contextId]
  constructor
  · rintro ⟨node, isEvent, rfl⟩
    obtain ⟨inWhole, isMine⟩ := isPart.mem.mp isEvent
    exact ⟨⟨node, inWhole, rfl⟩, (isPart.coherent node.event inWhole _ (named node)).mpr isMine⟩
  · rintro ⟨⟨node, inWhole, rfl⟩, isMine⟩
    have eventMine := (isPart.coherent node.event inWhole _ (named node)).mp isMine
    exact ⟨node, isPart.mem.mpr ⟨inWhole, eventMine⟩, rfl⟩

theorem Part.contextSpaceAssociationHeads : BTreeMap.Restricts (fun key => key.any ∈ mine)
    (contextSpaceAssociationHeads (factsOf whole))
    (SharedContext.contextSpaceAssociationHeads (factsOf part)) := by
  intro contextId found
  simp only [SharedContext.contextSpaceAssociationHeads, BTreeMap.get?_ofKeys_eq_some,
    isPart.associationContextIds]
  constructor
  · rintro ⟨⟨isContext, isMine⟩, heads⟩
    rw [isPart.reducedAssociations isMine] at heads
    exact ⟨⟨isContext, heads⟩, isMine⟩
  · rintro ⟨⟨isContext, heads⟩, isMine⟩
    rw [← isPart.reducedAssociations isMine] at heads
    exact ⟨⟨isContext, isMine⟩, heads⟩

theorem Part.contextSpaceAssociationConflicts : BTreeMap.Restricts (fun key => key.any ∈ mine)
    (contextSpaceAssociationConflicts (factsOf whole))
    (SharedContext.contextSpaceAssociationConflicts (factsOf part)) := by
  intro contextId conflict
  simp only [SharedContext.contextSpaceAssociationConflicts, BTreeMap.get?_ofKeys_eq_some,
    isPart.associationContextIds]
  constructor
  · rintro ⟨⟨isContext, isMine⟩, heads⟩
    rw [isPart.reducedAssociations isMine] at heads
    exact ⟨⟨isContext, heads⟩, isMine⟩
  · rintro ⟨⟨isContext, heads⟩, isMine⟩
    rw [← isPart.reducedAssociations isMine] at heads
    exact ⟨⟨isContext, isMine⟩, heads⟩

/-! ### Spaces -/

theorem Part.projectContext {key : ContextKey} (isMine : key.2.any ∈ mine) :
    projectContext (factsOf part) key = SharedContext.projectContext (factsOf whole) key := by
  have publications : validPublications (factsOf part) key =
      validPublications (factsOf whole) key := by
    rw [validPublications, isPart.reducedPublications isMine]
    rfl
  have heads : publicationHeads (factsOf part) key = publicationHeads (factsOf whole) key := by
    rw [publicationHeads, isPart.reducedPublications isMine]
    rfl
  have revisionHeads := isPart.contextHeads.get?_eq isMine
  have sameRevision : projectRevision (factsOf part) key =
      projectRevision (factsOf whole) key := by
    funext governance revisionId node
    simp only [projectRevision]
    rw [revisionHeads, isPart.validReviews isMine, publications]
  simp only [SharedContext.projectContext]
  rw [publications, heads, isPart.validRevisions isMine, revisionHeads,
    isPart.validReviews isMine, sameRevision]

theorem Part.contextSpace {key : ContextKey}
    (valid : key ∈ (SharedContext.validContexts (factsOf whole)).keys) :
    key.1.any ∈ mine ↔ key.2.any ∈ mine := by
  have owned := (mem_ownedContexts.mp (mem_ownedContexts_of_valid valid)).1
  exact isPart.owner owned (Finset.mem_singleton_self key.1)

theorem Part.projectContexts {spaceId : SpaceId} (isMine : spaceId.any ∈ mine) :
    projectContexts (factsOf part) spaceId =
      SharedContext.projectContexts (factsOf whole) spaceId := by
  ext1 contextId
  apply Option.ext
  intro context
  rw [get?_projectContexts, get?_projectContexts, isPart.validContexts.mem_keys]
  constructor
  · rintro ⟨⟨valid, contextMine⟩, isContext⟩
    rw [isPart.projectContext contextMine] at isContext
    exact ⟨valid, isContext⟩
  · rintro ⟨valid, isContext⟩
    have contextMine : contextId.any ∈ mine := (isPart.contextSpace valid).mp isMine
    rw [← isPart.projectContext contextMine] at isContext
    exact ⟨⟨valid, contextMine⟩, isContext⟩

theorem Part.projectIntent {spaceId : SpaceId} (isMine : spaceId.any ∈ mine) :
    projectIntent (factsOf part) spaceId =
      SharedContext.projectIntent (factsOf whole) spaceId := by
  rw [SharedContext.projectIntent, isPart.reducedIntents isMine]
  rfl

theorem Part.projectSpaces : BTreeMap.Restricts (fun key => key.any ∈ mine)
    (projectSpaces (factsOf whole)) (SharedContext.projectSpaces (factsOf part)) := by
  intro spaceId space
  rw [get?_projectSpaces, get?_projectSpaces, isPart.validSpaces]
  constructor
  · rintro ⟨⟨isSpace, isMine⟩, rfl⟩
    rw [isPart.projectIntent isMine, isPart.projectContexts isMine]
    exact ⟨⟨isSpace, rfl⟩, isMine⟩
  · rintro ⟨⟨isSpace, rfl⟩, isMine⟩
    rw [← isPart.projectIntent isMine, ← isPart.projectContexts isMine]
    exact ⟨⟨isSpace, isMine⟩, rfl⟩

theorem Part.contextIn? {spaceId : SpaceId} {contextId : ContextId}
    (isMine : contextId.any ∈ mine) :
    contextIn? (SharedContext.projectSpaces (factsOf part)) spaceId contextId =
      SharedContext.contextIn? (SharedContext.projectSpaces (factsOf whole)) spaceId contextId := by
  have sameContext : SharedContext.projectContext (factsOf part) (spaceId, contextId) =
      SharedContext.projectContext (factsOf whole) (spaceId, contextId) :=
    isPart.projectContext isMine
  apply Option.ext
  intro context
  rw [contextIn?_projectSpaces, contextIn?_projectSpaces, isPart.validContexts.mem_keys,
    and_iff_left isMine, sameContext]

theorem Part.contextHolder? {contextId : ContextId} (isMine : contextId.any ∈ mine) :
    contextHolder? (SharedContext.projectSpaces (factsOf part)) contextId =
      SharedContext.contextHolder? (SharedContext.projectSpaces (factsOf whole)) contextId := by
  apply Option.ext
  rintro ⟨spaceId, context⟩
  have sameContext : SharedContext.projectContext (factsOf part) (spaceId, contextId) =
      SharedContext.projectContext (factsOf whole) (spaceId, contextId) :=
    isPart.projectContext isMine
  rw [contextHolder?_projectSpaces, contextHolder?_projectSpaces, isPart.validContexts.mem_keys,
    and_iff_left isMine, sameContext]

/-! ### Candidates and confirmations -/

theorem Part.validCandidateNodes : BTreeMap.Restricts (fun key => key.any ∈ mine)
    (validCandidateNodes (factsOf whole)) (SharedContext.validCandidateNodes (factsOf part)) := by
  apply isPart.candidates.filter
  intro key node found isMine
  obtain ⟨keyMine, submissionMine⟩ := isPart.candidateNode found
  have eventMine := keyMine.mp isMine
  rw [isPart.live eventMine, isPart.submissions.get?_eq (submissionMine.mpr eventMine)]

theorem Part.projectCandidates : BTreeMap.Restricts (fun key => key.any ∈ mine)
    (projectCandidates (factsOf whole)) (SharedContext.projectCandidates (factsOf part)) := by
  apply BTreeMap.Restricts.map
  apply isPart.candidates.filter
  intro key node found isMine
  exact isPart.live ((isPart.candidateNode found).1.mp isMine)

theorem Part.resultRevision? {confirmation : CandidateConfirmation}
    (isMine : confirmation.resultContextId.any ∈ mine) :
    resultRevision? (factsOf part) confirmation =
      SharedContext.resultRevision? (factsOf whole) confirmation := by
  rw [SharedContext.resultRevision?, SharedContext.resultRevision?, resultContext?,
    resultContext?, isPart.contextIn? isMine]

theorem Part.resultPublication? {confirmation : CandidateConfirmation}
    (isMine : confirmation.resultContextId.any ∈ mine) :
    resultPublication? (factsOf part) confirmation =
      SharedContext.resultPublication? (factsOf whole) confirmation := by
  rw [SharedContext.resultPublication?, SharedContext.resultPublication?, resultContext?,
    resultContext?, isPart.contextIn? isMine]

theorem Part.referenceNode {key : ReferenceId} {node : EngineeringReferenceNode}
    (found : (factsOf whole).references.get? key = some node) :
    (key.any ∈ mine ↔ node.eventId.any ∈ mine) ∧
      (node.contextId.any ∈ mine ↔ node.eventId.any ∈ mine) := by
  obtain ⟨rfl, isEvent, -⟩ := references_iff.mp found
  constructor <;> apply isPart.coherent node.event isEvent <;>
    simp [ReducerEvent.identifiers, EngineeringReferenceNode.event, EventPayload.identifiers]

omit isPart in
/-- A confirmation stays valid where everything it looks up is the same. -/
theorem ConfirmationIsValid.transfer {hasher : ContentHasher} {facts others : Facts}
    {confirmation : CandidateConfirmation}
    (candidates : (SharedContext.validCandidateNodes facts).get? confirmation.candidateId =
      (SharedContext.validCandidateNodes others).get? confirmation.candidateId)
    (associations :
      (SharedContext.contextSpaceAssociations facts).get? confirmation.spaceAssociationId =
        (SharedContext.contextSpaceAssociations others).get? confirmation.spaceAssociationId)
    (revisions : resultRevision? facts confirmation = resultRevision? others confirmation)
    (publications : resultPublication? facts confirmation = resultPublication? others confirmation)
    (contextNodes : facts.contexts.get? confirmation.resultRevisionId =
      others.contexts.get? confirmation.resultRevisionId)
    (publicationNodes : facts.publications.get? confirmation.publicationId =
      others.publications.get? confirmation.publicationId)
    (created : createdSpaceMatches facts confirmation confirmation.createdSpaceId →
      createdSpaceMatches others confirmation confirmation.createdSpaceId)
    (references : engineeringReferenceEventsMatch facts confirmation →
      engineeringReferenceEventsMatch others confirmation)
    (spaces : spacesMatch facts confirmation → spacesMatch others confirmation)
    (valid : ConfirmationIsValid hasher facts confirmation) :
    ConfirmationIsValid hasher others confirmation where
  candidate := by simpa only [candidateMatches, candidates] using valid.candidate
  association := by simpa only [associationMatches, associations] using valid.association
  revision := revisions ▸ valid.revision
  revisionEvent := by
    simpa only [revisionEventMatches, contextNodes] using valid.revisionEvent
  causalPublication := by
    simpa only [causalPublicationMatches, publications] using valid.causalPublication
  publicationEvent := by
    simpa only [publicationEventMatches, publicationNodes] using valid.publicationEvent
  createdSpace := created valid.createdSpace
  engineeringReferences := references valid.engineeringReferences
  content := by simpa only [contentMatches, candidates, revisions] using valid.content
  spaces := spaces valid.spaces

section Confirmation

variable {confirmation : CandidateConfirmation}
  (allMine : ∀ id ∈ confirmation.identifiers, id ∈ mine)
include allMine

theorem Part.engineeringReferenceEvents :
    engineeringReferenceEventsMatch (factsOf part) confirmation ↔
      engineeringReferenceEventsMatch (factsOf whole) confirmation := by
  refine forall₂_congr fun eventId isReference => ?_
  have eventMine : eventId.any ∈ mine := by
    apply allMine
    simp [CandidateConfirmation.identifiers, CandidateConfirmationCausalRefs.identifiers,
      isReference]
  simp only [BTreeMap.any_iff, isPart.references _, isPart.live eventMine]
  constructor
  · rintro ⟨key, node, ⟨found, -⟩, holds⟩
    exact ⟨key, node, found, holds⟩
  · rintro ⟨key, node, found, sameEvent, holds⟩
    obtain ⟨keyMine, -⟩ := isPart.referenceNode found
    rw [sameEvent] at keyMine
    exact ⟨key, node, ⟨found, keyMine.mpr eventMine⟩, sameEvent, holds⟩

theorem Part.createdSpace :
    createdSpaceMatches (factsOf part) confirmation confirmation.createdSpaceId ↔
      createdSpaceMatches (factsOf whole) confirmation confirmation.createdSpaceId := by
  cases created : confirmation.createdSpaceId with
  | none => exact Iff.rfl
  | some spaceId =>
      have spaceMine : spaceId.any ∈ mine := by
        apply allMine
        simp [CandidateConfirmation.identifiers, created]
      simp only [createdSpaceMatches, isPart.spaceCreations.get?_eq spaceMine]

theorem Part.confirmationSpaces :
    spacesMatch (factsOf part) confirmation ↔ spacesMatch (factsOf whole) confirmation := by
  have primaryMine : confirmation.primarySpaceId.any ∈ mine := by
    apply allMine
    simp [CandidateConfirmation.identifiers]
  have relatedMine : ∀ spaceId ∈ confirmation.relatedSpaceIds, spaceId.any ∈ mine := by
    intro spaceId isRelated
    apply allMine
    simp [CandidateConfirmation.identifiers, isRelated]
  rw [spacesMatch, spacesMatch, isPart.validSpaces, and_iff_left primaryMine]
  refine and_congr_right fun _ => forall₂_congr fun spaceId isRelated => ?_
  rw [isPart.validSpaces, and_iff_left (relatedMine spaceId isRelated)]

theorem Part.confirmationIsValid (hasher : ContentHasher) :
    ConfirmationIsValid hasher (factsOf part) confirmation ↔
      ConfirmationIsValid hasher (factsOf whole) confirmation := by
  have named : ∀ {kind : IdKind} {id : OpaqueId kind},
      id.any ∈ confirmation.identifiers → id.any ∈ mine := fun member => allMine _ member
  have contextMine : confirmation.resultContextId.any ∈ mine :=
    named (by simp [CandidateConfirmation.identifiers])
  have candidateMine : confirmation.candidateId.any ∈ mine :=
    named (by simp [CandidateConfirmation.identifiers])
  have revisionMine : confirmation.resultRevisionId.any ∈ mine :=
    named (by simp [CandidateConfirmation.identifiers])
  have publicationMine : confirmation.publicationId.any ∈ mine :=
    named (by simp [CandidateConfirmation.identifiers])
  have associationMine : confirmation.spaceAssociationId.any ∈ mine :=
    named (by simp [CandidateConfirmation.identifiers])
  have candidates := isPart.validCandidateNodes.get?_eq candidateMine
  have associations := isPart.contextSpaceAssociations.get?_eq associationMine
  have revision := isPart.resultRevision? contextMine
  have publication := isPart.resultPublication? contextMine
  constructor
  · refine ConfirmationIsValid.transfer candidates associations revision publication
      (isPart.contexts.get?_eq revisionMine) (isPart.publications.get?_eq publicationMine) ?_ ?_ ?_
    · exact (isPart.createdSpace allMine).mp
    · exact (isPart.engineeringReferenceEvents allMine).mp
    · exact (isPart.confirmationSpaces allMine).mp
  · refine ConfirmationIsValid.transfer candidates.symm associations.symm revision.symm
      publication.symm (isPart.contexts.get?_eq revisionMine).symm
      (isPart.publications.get?_eq publicationMine).symm ?_ ?_ ?_
    · exact (isPart.createdSpace allMine).mpr
    · exact (isPart.engineeringReferenceEvents allMine).mpr
    · exact (isPart.confirmationSpaces allMine).mpr

end Confirmation

theorem Part.confirmationNode {key : CandidateId} {node : CandidateConfirmationNode}
    (found : (factsOf whole).confirmationsByCandidate.get? key = some node) :
    (key.any ∈ mine ↔ node.eventId.any ∈ mine) ∧
      ∀ id ∈ node.confirmation.identifiers, id ∈ mine ↔ node.eventId.any ∈ mine := by
  obtain ⟨rfl, isEvent⟩ := confirmationNode_event found
  have coherent := isPart.coherent node.event isEvent
  constructor
  · apply coherent
    simp [ReducerEvent.identifiers, CandidateConfirmationNode.event, EventPayload.identifiers,
      CandidateConfirmation.identifiers]
  · exact fun id member => coherent id (List.mem_cons_of_mem _ member)

theorem Part.confirmationCandidates : BTreeMap.Restricts (fun key => key.any ∈ mine)
    (confirmationCandidates (factsOf whole))
    (SharedContext.confirmationCandidates (factsOf part)) :=
  isPart.confirmationsByCandidate.filter fun _ _ found isMine =>
    isPart.live ((isPart.confirmationNode found).1.mp isMine)

theorem Part.confirmationChecks (hasher : ContentHasher) {key : CandidateId}
    {node : CandidateConfirmationNode}
    (found : (SharedContext.confirmationCandidates (factsOf whole)).get? key = some node)
    (isMine : key.any ∈ mine) :
    ConfirmationIsValid hasher (factsOf part) node.confirmation ↔
      ConfirmationIsValid hasher (factsOf whole) node.confirmation := by
  obtain ⟨keyMine, coherent⟩ :=
    isPart.confirmationNode (BTreeMap.get?_filter_eq_some.mp found).1
  exact isPart.confirmationIsValid
    (fun id member => (coherent id member).mpr (keyMine.mp isMine)) hasher

theorem Part.candidateConfirmations (hasher : ContentHasher) :
    BTreeMap.Restricts (fun key => key.any ∈ mine)
      (candidateConfirmations hasher (factsOf whole))
      (SharedContext.candidateConfirmations hasher (factsOf part)) := by
  intro confirmationId projection
  rw [candidateConfirmations_iff, candidateConfirmations_iff]
  have named : ∀ node : CandidateConfirmationNode,
      node.confirmation.confirmationId.any ∈ node.confirmation.identifiers := fun node => by
    simp [CandidateConfirmation.identifiers]
  constructor
  · rintro ⟨node, isEvent, valid, isValid, rfl, isProjection⟩
    obtain ⟨inWhole, eventMine⟩ := isPart.mem.mp isEvent
    have coherent := isPart.coherent node.event inWhole
    have allMine : ∀ id ∈ node.confirmation.identifiers, id ∈ mine := fun id member =>
      (coherent id (List.mem_cons_of_mem _ member)).mpr eventMine
    exact ⟨⟨node, inWhole, (isPart.live eventMine).mp valid,
      (isPart.confirmationIsValid allMine hasher).mp isValid, rfl, isProjection⟩,
      allMine _ (named node)⟩
  · rintro ⟨⟨node, inWhole, valid, isValid, rfl, isProjection⟩, isMine⟩
    have coherent := isPart.coherent node.event inWhole
    have eventMine := (coherent _ (List.mem_cons_of_mem _ (named node))).mp isMine
    have allMine : ∀ id ∈ node.confirmation.identifiers, id ∈ mine := fun id member =>
      (coherent id (List.mem_cons_of_mem _ member)).mpr eventMine
    exact ⟨node, isPart.mem.mpr ⟨inWhole, eventMine⟩, (isPart.live eventMine).mpr valid,
      (isPart.confirmationIsValid allMine hasher).mpr isValid, rfl, isProjection⟩

/-! ### Engineering references -/

theorem Part.referenceCandidates : BTreeMap.Restricts (fun key => key.any ∈ mine)
    (referenceCandidates (factsOf whole)) (SharedContext.referenceCandidates (factsOf part)) :=
  isPart.references.filter fun _ _ found isMine =>
    isPart.live ((isPart.referenceNode found).1.mp isMine)

theorem Part.resolveReference {key : ReferenceId} {node : EngineeringReferenceNode}
    (found : (SharedContext.referenceCandidates (factsOf whole)).get? key = some node)
    (isMine : key.any ∈ mine) :
    resolveReference (factsOf part) key node =
      SharedContext.resolveReference (factsOf whole) key node := by
  obtain ⟨keyMine, contextMine⟩ :=
    isPart.referenceNode (BTreeMap.get?_filter_eq_some.mp found).1
  rw [SharedContext.resolveReference, SharedContext.resolveReference,
    isPart.contextHolder? (contextMine.mpr (keyMine.mp isMine))]

theorem Part.engineeringReferences : BTreeMap.Restricts (fun key => key.any ∈ mine)
    (engineeringReferences (factsOf whole)) (SharedContext.engineeringReferences (factsOf part)) :=
  isPart.referenceCandidates.filterMap fun _ _ found isMine => by
    rw [isPart.resolveReference found isMine]

/-! ### Semantic conflicts -/

theorem Part.conflictNode {key : ConflictId} {node : ConflictNode}
    (found : (factsOf whole).conflicts.get? key = some node) :
    (key.any ∈ mine ↔ node.eventId.any ∈ mine) ∧
      (node.spaceId.any ∈ mine ↔ node.eventId.any ∈ mine) ∧
      ∀ participant ∈ node.conflict.participants,
        participant.contextId.any ∈ mine ↔ node.eventId.any ∈ mine := by
  obtain ⟨rfl, isEvent⟩ := conflictNode_event found
  refine ⟨?_, ?_, fun participant isParticipant => ?_⟩ <;>
    apply isPart.coherent node.event isEvent
  · simp [ReducerEvent.identifiers, ConflictNode.event, EventPayload.identifiers]
  · simp [ReducerEvent.identifiers, ConflictNode.event, EventPayload.identifiers]
  · apply List.mem_cons_of_mem
    apply List.mem_append_right
    exact List.mem_flatMap.mpr ⟨participant, isParticipant, List.mem_cons_self⟩

theorem Part.conflictNodes : BTreeMap.Restricts (fun key => key.any ∈ mine)
    (conflictNodes (factsOf whole)) (SharedContext.conflictNodes (factsOf part)) :=
  isPart.conflicts.filter fun _ _ found isMine =>
    isPart.live ((isPart.conflictNode found).1.mp isMine)

omit isPart in
theorem mapM_option_congr {α β : Type} {first second : α → Option β} {items : List α}
    (same : ∀ item ∈ items, first item = second item) :
    items.mapM first = items.mapM second := by
  induction items with
  | nil => rfl
  | cons item items ih =>
      rw [List.mapM_cons, List.mapM_cons, same item List.mem_cons_self,
        ih fun other member => same other (List.mem_cons_of_mem _ member)]

theorem Part.conflictChecks {key : ConflictId} {node : ConflictNode}
    (found : (SharedContext.conflictNodes (factsOf whole)).get? key = some node)
    (isMine : key.any ∈ mine) :
    conflictIsValid (SharedContext.projectSpaces (factsOf part)) node ↔
      conflictIsValid (SharedContext.projectSpaces (factsOf whole)) node := by
  obtain ⟨keyMine, spaceMine, participantsMine⟩ :=
    isPart.conflictNode (BTreeMap.get?_filter_eq_some.mp found).1
  have eventMine := keyMine.mp isMine
  have revisions : node.conflict.participants.mapM
        (participantRevision? (SharedContext.projectSpaces (factsOf part)) node.spaceId) =
      node.conflict.participants.mapM
        (participantRevision? (SharedContext.projectSpaces (factsOf whole)) node.spaceId) := by
    apply mapM_option_congr
    intro participant isParticipant
    have contextMine := (participantsMine participant isParticipant).mpr eventMine
    rw [participantRevision?, participantRevision?, isPart.contextIn? contextMine]
  rw [conflictIsValid, conflictIsValid, isPart.projectSpaces.mem_keys, revisions,
    and_iff_left (spaceMine.mpr eventMine)]

theorem Part.validConflicts : BTreeMap.Restricts (fun key => key.any ∈ mine)
    (validConflicts (factsOf whole)) (SharedContext.validConflicts (factsOf part)) :=
  isPart.conflictNodes.filter fun _ _ found isMine => isPart.conflictChecks found isMine

theorem Part.resolutionNode {key : ResolutionId} {node : ResolutionNode}
    (found : (factsOf whole).resolutions.get? key = some node) :
    (key.any ∈ mine ↔ node.eventId.any ∈ mine) ∧
      (node.conflictId.any ∈ mine ↔ node.eventId.any ∈ mine) ∧
      ∀ result ∈ node.resolution.results,
        result.contextId.any ∈ mine ↔ node.eventId.any ∈ mine := by
  obtain ⟨rfl, isEvent⟩ := resolutionNode_event found
  refine ⟨?_, ?_, fun result isResult => ?_⟩ <;> apply isPart.coherent node.event isEvent
  · simp [ReducerEvent.identifiers, ResolutionNode.event, EventPayload.identifiers]
  · simp [ReducerEvent.identifiers, ResolutionNode.event, EventPayload.identifiers]
  · apply List.mem_cons_of_mem
    apply List.mem_append_right
    exact List.mem_flatMap.mpr ⟨result, isResult, List.mem_cons_self⟩

theorem Part.resolutionNodes : BTreeMap.Restricts (fun key => key.any ∈ mine)
    (resolutionNodes (factsOf whole)) (SharedContext.resolutionNodes (factsOf part)) :=
  isPart.resolutions.filter fun _ _ found isMine =>
    isPart.live ((isPart.resolutionNode found).1.mp isMine)

theorem Part.resolutionConflict {key : ResolutionId} {node : ResolutionNode}
    (found : (SharedContext.resolutionNodes (factsOf whole)).get? key = some node)
    (isMine : key.any ∈ mine) :
    resolutionConflictIsValid (factsOf part) node ↔
      resolutionConflictIsValid (factsOf whole) node := by
  obtain ⟨keyMine, conflictMine, -⟩ :=
    isPart.resolutionNode (BTreeMap.get?_filter_eq_some.mp found).1
  rw [resolutionConflictIsValid, resolutionConflictIsValid,
    isPart.validConflicts.get?_eq (conflictMine.mpr (keyMine.mp isMine))]

section Resolutions

variable {conflictId : ConflictId} {conflictNode : ConflictNode} (isMine : conflictId.any ∈ mine)
include isMine

theorem Part.resolutionsOf :
    resolutionsOf (factsOf part) conflictId conflictNode =
      SharedContext.resolutionsOf (factsOf whole) conflictId conflictNode := by
  apply isPart.resolutionNodes.filter_eq
  · rintro resolutionId node found ⟨rfl, -⟩
    obtain ⟨keyMine, conflictMine, -⟩ :=
      isPart.resolutionNode (BTreeMap.get?_filter_eq_some.mp found).1
    exact keyMine.mpr (conflictMine.mp isMine)
  · exact fun _ _ _ _ => Iff.rfl

variable (isConflict : (SharedContext.validConflicts (factsOf whole)).get? conflictId =
  some conflictNode)
include isConflict

theorem Part.conflictContext? {contextId : ContextId}
    (isParticipant : contextId ∈ participantContexts conflictNode.conflict) :
    conflictContext? (factsOf part) conflictNode contextId =
      SharedContext.conflictContext? (factsOf whole) conflictNode contextId := by
  obtain ⟨participant, inList, rfl⟩ := List.mem_map.mp (List.mem_toFinset.mp isParticipant)
  obtain ⟨keyMine, -, participantsMine⟩ :=
    isPart.conflictNode (validConflicts_agrees isConflict).1
  have contextMine := (participantsMine participant inList).mpr (keyMine.mp isMine)
  rw [SharedContext.conflictContext?, SharedContext.conflictContext?,
    isPart.contextIn? contextMine]

theorem Part.resolutionIsValid {resolution : ConflictResolution} :
    resolutionIsValid (factsOf part) conflictNode resolution ↔
      SharedContext.resolutionIsValid (factsOf whole) conflictNode resolution := by
  rw [SharedContext.resolutionIsValid, SharedContext.resolutionIsValid, and_assoc, and_assoc]
  refine and_congr_right fun covers => and_congr ?_ ?_
  · refine forall₂_congr fun result isResult => ?_
    have isParticipant : result.contextId ∈ participantContexts conflictNode.conflict := by
      rw [← covers]
      exact List.mem_toFinset.mpr (List.mem_map_of_mem isResult)
    rw [isPart.conflictContext? isMine isConflict isParticipant]
  · refine forall₂_congr fun publicationId _ => exists_congr fun contextId => ?_
    refine and_congr_right fun isParticipant => ?_
    rw [isPart.conflictContext? isMine isConflict isParticipant]

theorem Part.reducedResolutions :
    reducedResolutions (factsOf part) conflictId conflictNode =
      SharedContext.reducedResolutions (factsOf whole) conflictId conflictNode := by
  have candidates : resolutionCandidates (factsOf part) conflictId conflictNode =
      resolutionCandidates (factsOf whole) conflictId conflictNode := by
    ext1 key
    apply Option.ext
    intro node
    simp only [resolutionCandidates, BTreeMap.get?_filter_eq_some, isPart.resolutionsOf isMine,
      isPart.resolutionIsValid isMine isConflict]
  rw [SharedContext.reducedResolutions, candidates]
  rfl

theorem Part.projectConflict :
    projectConflict (factsOf part) conflictId conflictNode =
      SharedContext.projectConflict (factsOf whole) conflictId conflictNode := by
  have converged : publicationsConverged (factsOf part) conflictNode ↔
      publicationsConverged (factsOf whole) conflictNode :=
    forall₂_congr fun contextId isParticipant => by
      rw [isPart.conflictContext? isMine isConflict isParticipant]
  have diverged : reasonWhen (¬ publicationsConverged (factsOf part) conflictNode)
        .publicationHeadsNotConverged =
      reasonWhen (¬ publicationsConverged (factsOf whole) conflictNode)
        .publicationHeadsNotConverged :=
    reasonWhen_congr (not_congr converged)
  have current : currentPublicationHeads (factsOf part) conflictNode =
      currentPublicationHeads (factsOf whole) conflictNode :=
    Finset.biUnion_congr rfl fun contextId isParticipant => by
      rw [isPart.conflictContext? isMine isConflict isParticipant]
  have status : conflictStatus (factsOf part) conflictNode =
      conflictStatus (factsOf whole) conflictNode := by
    funext resolutions resolutionHeads
    simp only [conflictStatus, diverged, current]
  simp only [SharedContext.projectConflict]
  rw [isPart.reducedResolutions isMine isConflict, status]

end Resolutions

theorem Part.semanticConflicts : BTreeMap.Restricts (fun key => key.any ∈ mine)
    (semanticConflicts (factsOf whole)) (SharedContext.semanticConflicts (factsOf part)) :=
  isPart.validConflicts.filterMap fun _ _ found isMine => by
    rw [isPart.projectConflict isMine found]

theorem Part.openConflicts {spaceId : SpaceId} {contextId : ContextId}
    (isMine : contextId.any ∈ mine) :
    openConflicts (SharedContext.semanticConflicts (factsOf part)) spaceId contextId =
      SharedContext.openConflicts (SharedContext.semanticConflicts (factsOf whole)) spaceId
        contextId := by
  rw [SharedContext.openConflicts, SharedContext.openConflicts]
  refine congrArg BTreeMap.keys (isPart.semanticConflicts.filter_eq ?_ ?_)
  · rintro conflictId conflict found ⟨-, -, isParticipant⟩
    obtain ⟨node, isNode, rfl⟩ := get?_semanticConflicts.mp found
    obtain ⟨participant, inList, rfl⟩ := List.mem_map.mp (List.mem_toFinset.mp isParticipant)
    obtain ⟨keyMine, -, participantsMine⟩ :=
      isPart.conflictNode (validConflicts_agrees isNode).1
    exact keyMine.mpr ((participantsMine participant inList).mp isMine)
  · exact fun _ _ _ _ => Iff.rfl

theorem Part.spaces (hasher : ContentHasher) : BTreeMap.Restricts (fun key => key.any ∈ mine)
    (reduce whole hasher).spaces (reduce part hasher).spaces := by
  change BTreeMap.Restricts _
    (blockSpaces (SharedContext.semanticConflicts (factsOf whole))
      (SharedContext.projectSpaces (factsOf whole)))
    (blockSpaces (SharedContext.semanticConflicts (factsOf part))
      (SharedContext.projectSpaces (factsOf part)))
  apply isPart.projectSpaces.filterMap
  intro spaceId space found isMine
  obtain ⟨-, rfl⟩ := get?_projectSpaces.mp found
  have contexts : ((SharedContext.projectContexts (factsOf whole) spaceId).filterMap
        fun contextId context => some (blockAutoInjection
          (SharedContext.openConflicts (SharedContext.semanticConflicts (factsOf part)) spaceId
            contextId) context)) =
      (SharedContext.projectContexts (factsOf whole) spaceId).filterMap
        fun contextId context => some (blockAutoInjection
          (SharedContext.openConflicts (SharedContext.semanticConflicts (factsOf whole)) spaceId
            contextId) context) := by
    ext1 contextId
    apply Option.ext
    intro context
    simp only [BTreeMap.get?_filterMap, Option.bind_eq_some_iff]
    refine exists_congr fun projected => and_congr_right fun isContext => ?_
    have valid := (get?_projectContexts.mp isContext).1
    rw [isPart.openConflicts ((isPart.contextSpace valid).mp isMine)]
  simp only [Option.some.injEq, ContextSpaceProjection.mk.injEq, true_and]
  exact contexts

end SharedContext
