import SharedContext.Mcp.ConflictOpenings
import SharedContext.Reducer.Merging
import SharedContext.Reducer.PlanAcceptance

/-!
# A batch of reserved confirmations

Several plans are prepared against one snapshot and written together.  Their
reserved identities are fresh, so the plans meet only in Contexts of the
snapshot, and the reducer accepts every event of the batch.
-/

namespace SharedContext

/-! ### Reserved identities -/

def CandidateConfirmationPlan.reservedIds (plan : CandidateConfirmationPlan) : List AnyId :=
  [plan.resultContextId.any, plan.resultRevision.revisionId.any,
    plan.spaceAssociation.associationId.any, plan.publication.publicationId.any,
    plan.confirmation.confirmationId.any] ++
  (plan.newSpace.toList.flatMap fun space =>
    [space.spaceId.any, space.intentRevision.revisionId.any]) ++
  (plan.resultRevision.evidence.map fun evidence => evidence.evidenceId.any) ++
  (plan.engineeringReferences.map fun reference => reference.referenceId.any) ++
  (plan.openedConflicts.map fun opening => opening.conflict.conflictId.any) ++
  plan.allEventIds.map OpaqueId.any

/-- No reserved identity occurs in the history or twice in the plans. -/
structure FreshPlans (history : List ReducerEvent) (plans : List CandidateConfirmationPlan) :
    Prop where
  distinct : (plans.flatMap CandidateConfirmationPlan.reservedIds).Nodup
  absent : ∀ plan ∈ plans, ∀ id ∈ plan.reservedIds, id ∉ mentioned history

variable {hasher : PlanHasher} {history : List ReducerEvent}

/-! ### The identities of a plan's events -/

section Identities

variable {plan : CandidateConfirmationPlan} {candidate : ContextCandidate}
  {selection : CandidatePrimarySelection} {openings : List SemanticConflictOpeningDraft}

theorem count_zip_flatMap {α β γ : Type} [DecidableEq γ] (first : α → γ) (second : β → γ)
    {items : List α} {others : List β} (sameLength : items.length = others.length) (id : γ) :
    ((items.zip others).flatMap fun pair => [first pair.1, second pair.2]).count id =
      (items.map first).count id + (others.map second).count id := by
  induction items generalizing others with
  | nil => cases others <;> simp at *
  | cons item items ih =>
      cases others with
      | nil => simp at sameLength
      | cons other others =>
          have rest := ih (Nat.succ.inj sameLength)
          simp only [List.zip_cons_cons, List.flatMap_cons, List.map_cons, List.count_append,
            List.count_cons, List.count_nil, rest]
          omega

theorem count_identities (reserved : plan.ReservedFor hasher candidate selection openings)
    (id : AnyId) :
    ((plan.events.flatMap ReducerEvent.identities).map Identity.id).count id ≤
      (plan.confirmation.candidateId.any :: plan.reservedIds).count id := by
  obtain ⟨-, -, -, -, -, -, -, -, -, -, -, referenceCount, conflictCount, -⟩ :=
    (CandidateConfirmationPlan.sound reserved.validated).identities
  have creation := reserved.creation
  have spaces : ((plan.spaceEvents.flatMap ReducerEvent.identities).map Identity.id).count id =
      (plan.eventIds.spaceCreatedEventId.toList.map OpaqueId.any).count id +
        (plan.newSpace.toList.flatMap fun space =>
          [space.spaceId.any, space.intentRevision.revisionId.any]).count id := by
    unfold CandidateConfirmationPlan.spaceEvents
    cases isNew : plan.newSpace <;> cases isCreation : plan.eventIds.spaceCreatedEventId <;>
      simp [isNew, isCreation] at creation ⊢
    simp only [ReducerEvent.identities, ReducerEvent.entityIdentities, List.map_cons,
      List.map_nil, Identity.id, List.count_cons, List.count_nil]
    omega
  have references := count_zip_flatMap OpaqueId.any
    (fun reference : EngineeringReference => reference.referenceId.any) referenceCount id
  have conflicts := count_zip_flatMap OpaqueId.any
    (fun opening : SemanticConflictOpening => opening.conflict.conflictId.any) conflictCount id
  have referencesEq : (((plan.referenceFacts).map factEvent).flatMap
      ReducerEvent.identities).map Identity.id =
        (plan.eventIds.engineeringReferenceEventIds.zip plan.engineeringReferences).flatMap
          fun pair => [pair.1.any, pair.2.referenceId.any] := by
    simp only [CandidateConfirmationPlan.referenceFacts, List.map_map, List.flatMap_map,
      List.map_flatMap]
    rfl
  have conflictsEq : (((plan.conflictFacts).map factEvent).flatMap
      ReducerEvent.identities).map Identity.id =
        (plan.eventIds.semanticConflictEventIds.zip plan.openedConflicts).flatMap
          fun pair => [pair.1.any, pair.2.conflict.conflictId.any] := by
    simp only [CandidateConfirmationPlan.conflictFacts, List.map_map, List.flatMap_map,
      List.map_flatMap]
    rfl
  have contextEq : (((plan.contextFacts).map factEvent).flatMap
      ReducerEvent.identities).map Identity.id =
        [plan.eventIds.contextRevisionEventId.any, plan.resultRevision.revisionId.any] ++
          (plan.resultRevision.evidence.map fun evidence => evidence.evidenceId.any) ++
          [plan.eventIds.spaceAssociationEventId.any, plan.spaceAssociation.associationId.any,
            plan.eventIds.publicationEventId.any, plan.publication.publicationId.any] := by
    simp [CandidateConfirmationPlan.contextFacts, factEvent, ReducerEvent.identities,
      ReducerEvent.entityIdentities, Identity.id, Function.comp_def]
  have confirmationEq : ([factEvent plan.confirmationFact].flatMap
      ReducerEvent.identities).map Identity.id =
        [plan.eventIds.confirmationEventId.any, plan.confirmation.confirmationId.any,
          plan.confirmation.candidateId.any] := rfl
  simp only [CandidateConfirmationPlan.events, List.map_append, List.flatMap_append,
    List.map_cons, List.map_nil, List.count_append, spaces, referencesEq, conflictsEq, contextEq,
    confirmationEq, references, conflicts, CandidateConfirmationPlan.reservedIds,
    CandidateConfirmationPlan.allEventIds, List.count_cons, List.count_nil]
  omega

theorem notCandidate_of_defines {event : ReducerEvent} {identity : Identity}
    {candidateId : CandidateId}
    (noCandidate : ∀ other, .candidate other ∉ event.entityIdentities)
    (notConfirmed : ¬ ∃ other, identity = .confirmedCandidate other)
    (defines : identity ∈ event.identities) : identity.id ≠ candidateId.any := by
  intro sameId
  cases identity <;> simp [Identity.id] at sameId
  case candidate other =>
    rcases List.mem_cons.mp defines with same | entity
    · cases same
    · exact noCandidate other entity
  case confirmedCandidate other => exact notConfirmed ⟨other, rfl⟩

theorem identity_reserved (reserved : plan.ReservedFor hasher candidate selection openings)
    {event : ReducerEvent} (member : event ∈ plan.events) {identity : Identity}
    (defines : identity ∈ event.identities) :
    identity = .confirmedCandidate plan.confirmation.candidateId ∨
      identity.id ∈ plan.reservedIds := by
  by_cases confirmed : ∃ candidateId, identity = .confirmedCandidate candidateId
  · obtain ⟨candidateId, rfl⟩ := confirmed
    have confirms := confirms_iff.mpr defines
    rcases plan.mem_events.mp member with isSpace | rfl | rfl | rfl | ⟨_, _, -, rfl⟩ |
      ⟨_, _, -, rfl⟩ | rfl
    · obtain ⟨newSpace, eventId, -, -, rfl⟩ := plan.mem_spaceEvents.mp isSpace
      cases confirms
    all_goals cases confirms
    exact .inl rfl
  · right
    have listed : identity.id ∈
        (plan.events.flatMap ReducerEvent.identities).map Identity.id :=
      List.mem_map_of_mem (List.mem_flatMap.mpr ⟨event, member, defines⟩)
    have counted := count_identities reserved identity.id
    have isReserved : identity.id ∈ plan.confirmation.candidateId.any :: plan.reservedIds := by
      apply List.count_pos_iff.mp
      have positive := List.count_pos_iff.mpr listed
      omega
    rcases List.mem_cons.mp isReserved with isCandidate | isReserved
    · -- A Candidate identity would have to be a definition of the Candidate itself.
      exfalso
      rcases plan.mem_events.mp member with isSpace | rfl | rfl | rfl | ⟨_, _, -, rfl⟩ |
        ⟨_, _, -, rfl⟩ | rfl
      · obtain ⟨newSpace, eventId, -, -, rfl⟩ := plan.mem_spaceEvents.mp isSpace
        exact notCandidate_of_defines (by simp [ReducerEvent.entityIdentities,
          IntentNode.creation]) confirmed defines isCandidate
      all_goals
        exact notCandidate_of_defines (by simp [ReducerEvent.entityIdentities,
          ContextNode.event, ContextSpaceAssociationNode.event, PublicationNode.event,
          EngineeringReferenceNode.event, ConflictNode.event,
          CandidateConfirmationNode.event]) confirmed defines isCandidate
    · exact isReserved

theorem candidate_not_reserved (candidateId : CandidateId) :
    candidateId.any ∉ plan.reservedIds := by
  simp [CandidateConfirmationPlan.reservedIds]

end Identities

/-! ### Uniqueness in the extended history -/

section Batch

variable {plans : List CandidateConfirmationPlan}
  (reserved : ∀ plan ∈ plans, ∃ candidate selection openings,
    plan.ReservedFor hasher candidate selection openings)
include reserved

theorem definitionCount_batch (identity : Identity) :
    definitionCount (plans.flatMap CandidateConfirmationPlan.events) identity ≤
      (plans.map fun plan => plan.confirmation.candidateId.any).count identity.id +
        (plans.flatMap CandidateConfirmationPlan.reservedIds).count identity.id := by
  induction plans with
  | nil => exact Nat.zero_le _
  | cons plan plans ih =>
      have rest := ih fun other member => reserved other (List.mem_cons_of_mem _ member)
      obtain ⟨candidate, selection, openings, isReserved⟩ := reserved plan List.mem_cons_self
      have here := count_identities isReserved identity.id
      have counted : definitionCount plan.events identity ≤
          ((plan.events.flatMap ReducerEvent.identities).map Identity.id).count identity.id :=
        List.count_le_count_map
      rw [List.count_cons] at here
      rw [List.flatMap_cons, definitionCount_append, List.map_cons, List.count_cons,
        List.flatMap_cons, List.count_append]
      omega

variable (fresh : FreshPlans history plans)
include fresh

theorem definitionCount_history
    (unconfirmed : ∀ plan ∈ plans, ∀ event ∈ history,
      event.confirms? ≠ some plan.confirmation.candidateId) {event : ReducerEvent}
    (member : event ∈ plans.flatMap CandidateConfirmationPlan.events) {identity : Identity}
    (defines : identity ∈ event.identities) : definitionCount history identity = 0 := by
  obtain ⟨plan, isPlan, isEvent⟩ := List.mem_flatMap.mp member
  obtain ⟨candidate, selection, openings, isReserved⟩ := reserved plan isPlan
  by_contra defined
  obtain ⟨other, isOther, otherDefines⟩ :=
    definitionCount_pos.mp (Nat.pos_of_ne_zero defined)
  rcases identity_reserved isReserved isEvent defines with rfl | isReservedId
  · exact unconfirmed plan isPlan other isOther (confirms_iff.mpr otherDefines)
  · exact fresh.absent plan isPlan _ isReservedId
      (List.mem_flatMap.mpr ⟨other, isOther, identity_mentioned otherDefines⟩)

theorem uniqueIn_history
    (unconfirmed : ∀ plan ∈ plans, ∀ event ∈ history,
      event.confirms? ≠ some plan.confirmation.candidateId) {event : ReducerEvent}
    (unique : event.UniqueIn history) :
    event.UniqueIn (history ++ plans.flatMap CandidateConfirmationPlan.events) := by
  intro identity defines
  have once := unique identity defines
  rw [definitionCount_append, once]
  by_contra repeated
  have inBatch : 0 < definitionCount (plans.flatMap CandidateConfirmationPlan.events)
      identity := by omega
  obtain ⟨other, isOther, otherDefines⟩ := definitionCount_pos.mp inBatch
  have notBefore := definitionCount_history reserved fresh unconfirmed isOther
    otherDefines
  omega

variable (distinct : (plans.map fun plan => plan.confirmation.candidateId).Nodup)
include distinct

theorem definitionCount_batch_le_one (identity : Identity) :
    definitionCount (plans.flatMap CandidateConfirmationPlan.events) identity ≤ 1 := by
  have total := definitionCount_batch reserved identity
  have reservedOnce := List.nodup_iff_count_le_one.mp fresh.distinct identity.id
  have anyInjective : Function.Injective (OpaqueId.any : CandidateId → AnyId) :=
    fun first second same => by simpa using same
  have candidates := distinct.map anyInjective
  rw [List.map_map] at candidates
  have candidateOnce := List.nodup_iff_count_le_one.mp candidates identity.id
  by_cases isCandidate : ∃ candidateId : CandidateId, identity.id = candidateId.any
  · obtain ⟨candidateId, sameId⟩ := isCandidate
    have notReserved : (plans.flatMap CandidateConfirmationPlan.reservedIds).count
        identity.id = 0 := by
      rw [List.count_eq_zero, sameId, List.mem_flatMap]
      rintro ⟨plan, -, member⟩
      exact candidate_not_reserved candidateId member
    change (plans.map fun plan => plan.confirmation.candidateId.any).count identity.id ≤ 1
      at candidateOnce
    omega
  · have notConfirmed : (plans.map fun plan => plan.confirmation.candidateId.any).count
        identity.id = 0 := by
      rw [List.count_eq_zero, List.mem_map]
      rintro ⟨plan, -, sameId⟩
      exact isCandidate ⟨_, sameId.symm⟩
    omega

variable (unconfirmed : ∀ plan ∈ plans, ∀ event ∈ history,
  event.confirms? ≠ some plan.confirmation.candidateId)
include unconfirmed

theorem uniqueIn_batch {event : ReducerEvent}
    (member : event ∈ plans.flatMap CandidateConfirmationPlan.events) :
    event.UniqueIn (history ++ plans.flatMap CandidateConfirmationPlan.events) := by
  intro identity defines
  have notBefore := definitionCount_history reserved fresh unconfirmed member defines
  have atMost := definitionCount_batch_le_one reserved fresh distinct identity
  have positive := definitionCount_pos.mpr ⟨event, member, defines⟩
  rw [definitionCount_append]
  omega

end Batch

/-! ### Preparing plans against one snapshot -/

/-- The inputs of one confirmation, apart from what the snapshot decides. -/
structure ConfirmationInput where
  candidate : ContextCandidate
  operation : CandidateConfirmationOperation
  selection : CandidatePrimarySelection
  references : List EngineeringReferenceDraft
  ids : ReservedIds

namespace ConfirmationInput

variable (hasher) (projection : DomainProjection) (input : ConfirmationInput)

/-- Computes the final draft and its conflict openings and reserves the plan. -/
def prepare : Result CandidateConfirmationPlan := do
  let finalDraft ← input.operation.edits.apply input.candidate.content
  CandidateConfirmationPlan.reserve hasher input.ids input.candidate input.operation
    input.selection input.references
    (Mcp.contradictionConflictOpenings projection hasher.toContentHasher finalDraft
      input.selection.spaceId? (contextRevisionContentHash hasher.toContentHasher finalDraft))

/-- The Candidate, the Spaces and the relation targets are valid in the snapshot. -/
structure Admissible : Prop where
  candidate : ∃ projected ∈ projection.candidates.get? input.candidate.candidateId,
    projected.candidate = input.candidate
  primary : ∀ spaceId ∈ input.selection.spaceId?, spaceId ∈ projection.spaces.keys
  related : ∀ spaceId ∈ input.operation.relatedSpaceIds, spaceId ∈ projection.spaces.keys
  relations : ∀ finalDraft ∈ (input.operation.edits.apply input.candidate.content).toOption,
    ∀ relation ∈ finalDraft.relations,
      ∃ spaceId, (contextIn? projection.spaces spaceId relation.targetContextId).isSome

end ConfirmationInput

theorem mem_keys_reduce_spaces {hasher : ContentHasher} {spaceId : SpaceId} :
    spaceId ∈ (reduce history hasher).spaces.keys ↔ spaceId ∈ validSpaces (factsOf history) := by
  rw [BTreeMap.mem_keys_iff]
  constructor
  · rintro ⟨space, found⟩
    exact (get?_reduce_spaces.mp found).1
  · exact fun isSpace => ⟨_, get?_reduce_spaces.mpr ⟨isSpace, rfl⟩⟩

theorem contextHolder?_reduce {hasher : ContentHasher} {spaceId : SpaceId}
    {contextId : ContextId} {context : ContextProjection}
    (found : contextHolder? (reduce history hasher).spaces contextId = some (spaceId, context)) :
    contextIn? (reduce history hasher).spaces spaceId contextId = some context := by
  simp only [contextHolder?, Option.bind_eq_some_iff, Option.map_eq_some_iff,
    Prod.mk.injEq] at found
  obtain ⟨_, -, _, isContext, rfl, rfl⟩ := found
  exact isContext

theorem governance_accepted {publications : BTreeMap PublicationId PublicationNode}
    {heads : Finset PublicationId} {publicationId : PublicationId} {revisionId : RevisionId}
    (isAccepted : contextGovernance publications heads = .accepted publicationId revisionId) :
    ∃ node, publications.get? publicationId = some node ∧ node.publication.action = .publish ∧
      node.publication.revisionId = revisionId := by
  unfold contextGovernance at isAccepted
  split at isAccepted
  · cases isAccepted
  split at isAccepted
  · split at isAccepted
    case h_1 governance isHead =>
      subst isAccepted
      simp only [Option.bind_eq_some_iff, Option.map_eq_some_iff] at isHead
      obtain ⟨headId, -, node, found, isStatus⟩ := isHead
      unfold ContextGovernanceStatus.ofHead at isStatus
      split at isStatus
      case h_1 isPublish =>
        cases isStatus
        exact ⟨node, found, isPublish, rfl⟩
      case h_2 => cases isStatus
    case h_2 => cases isAccepted
  · cases isAccepted

theorem opening_valid {hasher : ContentHasher} {finalDraft : ContextRevisionDraft}
    {primarySpaceId : Option SpaceId} {relation : ContextRelation}
    {participant : ConflictParticipant}
    (projectable : Mcp.projectableConflictParticipant (reduce history hasher) finalDraft
      primarySpaceId relation = some participant) :
    finalDraft.kind.isGoverned = true ∧ ∃ spaceId revision, primarySpaceId = some spaceId ∧
      participantRevision? (projectSpaces (factsOf history)) spaceId participant =
        some revision ∧
      revision.topicKey = finalDraft.topicKey ∧
      applicabilityOverlaps finalDraft.applicability revision.applicability = true := by
  obtain ⟨governed, spaceId, context, target, isPrimary, holder, isAccepted, isTarget,
    targetGoverned, sameTopic, overlaps⟩ := Mcp.projectableConflictParticipant_eq_some _ projectable
  obtain ⟨valid, rfl⟩ := contextIn?_reduce.mp (contextHolder?_reduce holder)
  obtain ⟨publication, isPublication, isPublish, publishes⟩ := governance_accepted isAccepted
  obtain ⟨node, isNode, rfl⟩ := get?_projectContext_revisions.mp isTarget
  refine ⟨governed, spaceId, node.revision, isPrimary, participantRevision?_eq_some.mpr ?_,
    sameTopic, overlaps⟩
  exact ⟨valid, ⟨publication, isPublication, isPublish, publishes⟩, node, isNode,
    targetGoverned, rfl⟩

end SharedContext
