import SharedContext.Reducer.FactSources

/-!
# Accepted events

What the reducer decides about each event: it is accepted when its ID is not
invalid and the fact it declares survives every phase.  The valid tables hold
exactly the facts of the accepted events.
-/

namespace SharedContext

variable (hasher : ContentHasher) (facts : Facts)

/-- The fact a payload declares passes every phase. -/
def FactHolds : ReducerPayload → Prop
  | .contextCandidateCreated _ => True
  | .candidateConfirmed confirmation =>
      (∀ spaceId ∈ confirmation.createdSpaceId, spaceId ∈ validSpaces facts) ∧
        ConfirmationIsValid hasher facts confirmation
  | .spaceCreated spaceId revision | .spaceIntentRevisionAdded spaceId revision =>
      spaceId ∈ validSpaces facts ∧
        revision.revisionId ∈ (reducedIntents facts spaceId).nodes.keys
  | .contextRevisionAdded spaceId contextId revision =>
      revision.revisionId ∈ (validRevisions facts (spaceId, contextId)).keys
  | .contextReviewed _ _ review => review.reviewId ∈ (reviewNodes facts).keys
  | .contextPublicationChanged spaceId contextId publication =>
      (spaceId, contextId) ∈ (validContexts facts).keys ∧
        publication.publicationId ∈ (validPublications facts (spaceId, contextId)).keys
  | .contextSpaceAssociationChanged association =>
      association.associationId ∈ (reducedAssociations facts association.contextId).nodes.keys
  | .semanticConflictOpened _ conflict =>
      conflict.conflictId ∈ (validConflicts facts).keys
  | .semanticConflictResolutionAdded _ conflictId resolution =>
      ∃ conflictNode, (validConflicts facts).get? conflictId = some conflictNode ∧
        resolution.resolutionId ∈ (reducedResolutions facts conflictId conflictNode).nodes.keys
  | .engineeringReferenceRecorded _ _ reference =>
      reference.referenceId ∈ (engineeringReferences facts).keys

structure ReducerEvent.Accepted (event : ReducerEvent) : Prop where
  valid : event.eventId ∉ facts.invalidEventIds
  holds : FactHolds hasher facts event.payload

variable {events : List ReducerEvent}

/-! ### The valid tables hold the facts of the accepted events -/

theorem intentCandidates_agrees {facts : Facts} {spaceId : SpaceId} {key : RevisionId}
    {node : IntentNode}
    (found : (reducedIntents facts spaceId).nodes.get? key = some node) :
    facts.intents.get? key = some node ∧ node.spaceId = spaceId ∧
      node.eventId ∉ facts.invalidEventIds :=
  BTreeMap.get?_filter_eq_some.mp (get?_reducedIntents.mp found).1

theorem reducedIntents_iff {spaceId : SpaceId} {key : RevisionId} {node : IntentNode}
    (isSpace : spaceId ∈ validSpaces (factsOf events)) :
    (reducedIntents (factsOf events) spaceId).nodes.get? key = some node ↔
      key = node.revision.revisionId ∧ node.spaceId = spaceId ∧
        ((node.creation ∈ events ∧ node.creation.Accepted hasher (factsOf events)) ∨
          node.addition ∈ events ∧ node.addition.Accepted hasher (factsOf events)) := by
  constructor
  · intro found
    obtain ⟨isIntent, rfl, valid⟩ := intentCandidates_agrees found
    obtain ⟨rfl, isEvent⟩ := (intents_iff valid).mp isIntent
    have holds : node.spaceId ∈ validSpaces (factsOf events) ∧
        node.revision.revisionId ∈ (reducedIntents (factsOf events) node.spaceId).nodes.keys :=
      ⟨isSpace, BTreeMap.mem_keys_of_get? found⟩
    exact ⟨rfl, rfl, isEvent.imp (fun created => ⟨created, valid, holds⟩)
      fun added => ⟨added, valid, holds⟩⟩
  · rintro ⟨rfl, rfl, isAccepted⟩
    have isEvent := isAccepted.imp And.left And.left
    have valid : node.eventId ∉ (factsOf events).invalidEventIds := by
      rcases isAccepted with ⟨-, accepted⟩ | ⟨-, accepted⟩ <;> exact accepted.valid
    have member : node.revision.revisionId ∈
        (reducedIntents (factsOf events) node.spaceId).nodes.keys := by
      rcases isAccepted with ⟨-, accepted⟩ | ⟨-, accepted⟩ <;> exact accepted.holds.2
    exact BTreeMap.get?_of_mem_keys (fun _ _ found => (intentCandidates_agrees found).1)
      ((intents_iff valid).mpr ⟨rfl, isEvent⟩) member

theorem contextCandidates_agrees {facts : Facts} {key : ContextKey} {revisionId : RevisionId}
    {node : ContextNode} (found : (validRevisions facts key).get? revisionId = some node) :
    facts.contexts.get? revisionId = some node ∧ (node.spaceId, node.contextId) = key ∧
      node.eventId ∉ facts.invalidEventIds := by
  obtain ⟨-, candidate, -⟩ := get?_validRevisions_eq_some.mp found
  obtain ⟨isContext, isSpace, isKey, valid⟩ := BTreeMap.get?_filter_eq_some.mp candidate
  exact ⟨isContext, Prod.ext isSpace isKey, valid⟩

theorem validRevisions_iff {key : ContextKey} {revisionId : RevisionId} {node : ContextNode} :
    (validRevisions (factsOf events) key).get? revisionId = some node ↔
      revisionId = node.revision.revisionId ∧ (node.spaceId, node.contextId) = key ∧
        node.event ∈ events ∧ node.event.Accepted hasher (factsOf events) := by
  constructor
  · intro found
    obtain ⟨isContext, rfl, valid⟩ := contextCandidates_agrees found
    obtain ⟨rfl, isEvent⟩ := (contexts_iff valid).mp isContext
    exact ⟨rfl, rfl, isEvent, valid, BTreeMap.mem_keys_of_get? found⟩
  · rintro ⟨rfl, rfl, isEvent, accepted⟩
    exact BTreeMap.get?_of_mem_keys (fun _ _ found => (contextCandidates_agrees found).1)
      ((contexts_iff accepted.valid).mpr ⟨rfl, isEvent⟩) accepted.holds

theorem reviewNodes_agrees {facts : Facts} {key : ReviewId} {node : ReviewNode}
    (found : (reviewNodes facts).get? key = some node) :
    facts.reviews.get? key = some node ∧ node.eventId ∉ facts.invalidEventIds :=
  BTreeMap.get?_filter_eq_some.mp (BTreeMap.get?_filter_eq_some.mp found).1

theorem reviewNodes_iff {key : ReviewId} {node : ReviewNode} :
    (reviewNodes (factsOf events)).get? key = some node ↔
      key = node.review.reviewId ∧ node.event ∈ events ∧
        node.event.Accepted hasher (factsOf events) := by
  constructor
  · intro found
    obtain ⟨isReview, valid⟩ := reviewNodes_agrees found
    obtain ⟨rfl, isEvent⟩ := (reviews_iff valid).mp isReview
    exact ⟨rfl, isEvent, valid, BTreeMap.mem_keys_of_get? found⟩
  · rintro ⟨rfl, isEvent, accepted⟩
    exact BTreeMap.get?_of_mem_keys (fun _ _ found => (reviewNodes_agrees found).1)
      ((reviews_iff accepted.valid).mpr ⟨rfl, isEvent⟩) accepted.holds

theorem validPublications_eq_some {facts : Facts} {key : ContextKey}
    {publicationId : PublicationId} {node : PublicationNode} :
    (validPublications facts key).get? publicationId = some node ↔
      (publicationCandidates facts key).get? publicationId = some node ∧
        CausalGraph.Grounded (publicationCandidates facts key) PublicationNode.parents
          publicationId :=
  get?_reduceDag_eq_some

theorem validPublications_agrees {facts : Facts} {key : ContextKey}
    {publicationId : PublicationId} {node : PublicationNode}
    (found : (validPublications facts key).get? publicationId = some node) :
    facts.publications.get? publicationId = some node ∧
      node.eventId ∉ facts.invalidEventIds ∧ node.key = key ∧
      publicationReferencesAreValid facts node := by
  obtain ⟨candidate, -⟩ := validPublications_eq_some.mp found
  obtain ⟨live, isKey, references⟩ := BTreeMap.get?_filter_eq_some.mp candidate
  obtain ⟨isPublication, valid⟩ := BTreeMap.get?_filter_eq_some.mp live
  exact ⟨isPublication, valid, isKey, references⟩

theorem validPublications_iff {key : ContextKey} {publicationId : PublicationId}
    {node : PublicationNode} :
    (key ∈ (validContexts (factsOf events)).keys ∧
      (validPublications (factsOf events) key).get? publicationId = some node) ↔
      publicationId = node.publication.publicationId ∧ node.key = key ∧
        node.event ∈ events ∧ node.event.Accepted hasher (factsOf events) := by
  constructor
  · rintro ⟨isContext, found⟩
    obtain ⟨isPublication, valid, rfl, -⟩ := validPublications_agrees found
    obtain ⟨rfl, isEvent⟩ := (publications_iff valid).mp isPublication
    exact ⟨rfl, rfl, isEvent, valid, isContext, BTreeMap.mem_keys_of_get? found⟩
  · rintro ⟨rfl, rfl, isEvent, accepted⟩
    refine ⟨accepted.holds.1, ?_⟩
    exact BTreeMap.get?_of_mem_keys (fun _ _ found => (validPublications_agrees found).1)
      ((publications_iff accepted.valid).mpr ⟨rfl, isEvent⟩) accepted.holds.2

theorem reducedAssociations_eq_some {facts : Facts} {contextId : ContextId}
    {associationId : SpaceAssociationId} {node : ContextSpaceAssociationNode} :
    (reducedAssociations facts contextId).nodes.get? associationId = some node ↔
      (associationCandidates facts contextId).get? associationId = some node ∧
        CausalGraph.Grounded (associationCandidates facts contextId)
          ContextSpaceAssociationNode.parents associationId :=
  get?_reduceDag_eq_some

theorem reducedAssociations_agrees {facts : Facts} {contextId : ContextId}
    {associationId : SpaceAssociationId} {node : ContextSpaceAssociationNode}
    (found : (reducedAssociations facts contextId).nodes.get? associationId = some node) :
    facts.associations.get? associationId = some node ∧ node.contextId = contextId ∧
      node.eventId ∉ facts.invalidEventIds ∧ associationReferencesAreValid facts node := by
  obtain ⟨candidate, -⟩ := reducedAssociations_eq_some.mp found
  obtain ⟨ofContext, references⟩ := BTreeMap.get?_filter_eq_some.mp candidate
  obtain ⟨isAssociation, isKey, valid⟩ := BTreeMap.get?_filter_eq_some.mp ofContext
  exact ⟨isAssociation, isKey, valid, references⟩

theorem reducedAssociations_iff {contextId : ContextId} {associationId : SpaceAssociationId}
    {node : ContextSpaceAssociationNode} :
    (reducedAssociations (factsOf events) contextId).nodes.get? associationId = some node ↔
      associationId = node.association.associationId ∧ node.contextId = contextId ∧
        node.event ∈ events ∧ node.event.Accepted hasher (factsOf events) := by
  constructor
  · intro found
    obtain ⟨isAssociation, rfl, valid, -⟩ := reducedAssociations_agrees found
    obtain ⟨rfl, isEvent⟩ := (associations_iff valid).mp isAssociation
    exact ⟨rfl, rfl, isEvent, valid, BTreeMap.mem_keys_of_get? found⟩
  · rintro ⟨rfl, rfl, isEvent, accepted⟩
    exact BTreeMap.get?_of_mem_keys (fun _ _ found => (reducedAssociations_agrees found).1)
      ((associations_iff accepted.valid).mpr ⟨rfl, isEvent⟩) accepted.holds

theorem contextSpaceAssociations_eq_some {facts : Facts} {associationId : SpaceAssociationId}
    {projection : ContextSpaceAssociationProjection} :
    (contextSpaceAssociations facts).get? associationId = some projection ↔
      ∃ node, (reducedAssociations facts node.contextId).nodes.get? associationId = some node ∧
        ⟨node.eventId, node.association⟩ = projection := by
  simp only [contextSpaceAssociations, BTreeMap.get?_filterMap, Option.bind_eq_some_iff,
    Option.ite_none_right_eq_some, Option.some.injEq]
  constructor
  · rintro ⟨node, found, member, isProjection⟩
    have agrees : ∀ id other, (reducedAssociations facts node.contextId).nodes.get? id =
        some other → facts.associations.get? id = some other :=
      fun _ _ isNode => (reducedAssociations_agrees isNode).1
    exact ⟨node, BTreeMap.get?_of_mem_keys agrees found member, isProjection⟩
  · rintro ⟨node, found, isProjection⟩
    exact ⟨node, (reducedAssociations_agrees found).1, BTreeMap.mem_keys_of_get? found,
      isProjection⟩

theorem validCandidates_iff {candidateId : CandidateId} {node : CandidateNode} :
    ((factsOf events).candidates.get? candidateId = some node ∧
      node.eventId ∉ (factsOf events).invalidEventIds) ↔
      candidateId = node.candidate.candidateId ∧ node.event ∈ events ∧
        node.event.Accepted hasher (factsOf events) := by
  constructor
  · rintro ⟨found, valid⟩
    obtain ⟨rfl, isEvent⟩ := (candidates_iff valid).mp found
    exact ⟨rfl, isEvent, valid, trivial⟩
  · rintro ⟨rfl, isEvent, accepted⟩
    exact ⟨(candidates_iff accepted.valid).mpr ⟨rfl, isEvent⟩, accepted.valid⟩

theorem validCandidateNodes_iff {candidateId : CandidateId} {node : CandidateNode} :
    (validCandidateNodes (factsOf events)).get? candidateId = some node ↔
      candidateId = node.candidate.candidateId ∧ node.event ∈ events ∧
        node.event.Accepted hasher (factsOf events) := by
  rw [validCandidateNodes, BTreeMap.get?_filter_eq_some, ← validCandidates_iff]
  constructor
  · rintro ⟨found, valid, -⟩
    exact ⟨found, valid⟩
  · rintro ⟨found, valid⟩
    obtain ⟨rfl, isEvent⟩ := (candidates_iff valid).mp found
    exact ⟨found, valid, node, (submissions_iff valid).mpr ⟨rfl, isEvent⟩, rfl⟩

theorem validConflicts_agrees {facts : Facts} {conflictId : ConflictId} {node : ConflictNode}
    (found : (validConflicts facts).get? conflictId = some node) :
    facts.conflicts.get? conflictId = some node ∧ node.eventId ∉ facts.invalidEventIds ∧
      conflictIsValid (projectSpaces facts) node := by
  obtain ⟨isNode, references⟩ := BTreeMap.get?_filter_eq_some.mp found
  obtain ⟨isConflict, valid⟩ := BTreeMap.get?_filter_eq_some.mp isNode
  exact ⟨isConflict, valid, references⟩

theorem validConflicts_iff {conflictId : ConflictId} {node : ConflictNode} :
    (validConflicts (factsOf events)).get? conflictId = some node ↔
      conflictId = node.conflict.conflictId ∧ node.event ∈ events ∧
        node.event.Accepted hasher (factsOf events) := by
  constructor
  · intro found
    obtain ⟨isConflict, valid, -⟩ := validConflicts_agrees found
    obtain ⟨rfl, isEvent⟩ := (conflicts_iff valid).mp isConflict
    exact ⟨rfl, isEvent, valid, BTreeMap.mem_keys_of_get? found⟩
  · rintro ⟨rfl, isEvent, accepted⟩
    exact BTreeMap.get?_of_mem_keys (fun _ _ found => (validConflicts_agrees found).1)
      ((conflicts_iff accepted.valid).mpr ⟨rfl, isEvent⟩) accepted.holds

theorem reducedResolutions_eq_some {facts : Facts} {conflictId : ConflictId}
    {conflictNode : ConflictNode} {resolutionId : ResolutionId} {node : ResolutionNode} :
    (reducedResolutions facts conflictId conflictNode).nodes.get? resolutionId = some node ↔
      (resolutionCandidates facts conflictId conflictNode).get? resolutionId = some node ∧
        CausalGraph.Grounded (resolutionCandidates facts conflictId conflictNode)
          ResolutionNode.parents resolutionId :=
  get?_reduceDag_eq_some

theorem reducedResolutions_agrees {facts : Facts} {conflictId : ConflictId}
    {conflictNode : ConflictNode} {resolutionId : ResolutionId} {node : ResolutionNode}
    (found : (reducedResolutions facts conflictId conflictNode).nodes.get? resolutionId =
      some node) :
    facts.resolutions.get? resolutionId = some node ∧ node.eventId ∉ facts.invalidEventIds ∧
      node.conflictId = conflictId ∧ node.spaceId = conflictNode.spaceId ∧
      resolutionIsValid facts conflictNode node.resolution := by
  obtain ⟨candidate, -⟩ := reducedResolutions_eq_some.mp found
  obtain ⟨ofConflict, references⟩ := BTreeMap.get?_filter_eq_some.mp candidate
  obtain ⟨isNode, isConflict, isSpace⟩ := BTreeMap.get?_filter_eq_some.mp ofConflict
  obtain ⟨isResolution, valid⟩ := BTreeMap.get?_filter_eq_some.mp isNode
  exact ⟨isResolution, valid, isConflict, isSpace, references⟩

theorem reducedResolutions_iff {conflictId : ConflictId} {conflictNode : ConflictNode}
    {resolutionId : ResolutionId} {node : ResolutionNode}
    (isConflict : (validConflicts (factsOf events)).get? conflictId = some conflictNode) :
    (reducedResolutions (factsOf events) conflictId conflictNode).nodes.get? resolutionId =
        some node ↔
      resolutionId = node.resolution.resolutionId ∧ node.conflictId = conflictId ∧
        node.event ∈ events ∧ node.event.Accepted hasher (factsOf events) := by
  constructor
  · intro found
    obtain ⟨isResolution, valid, rfl, -, -⟩ := reducedResolutions_agrees found
    obtain ⟨rfl, isEvent⟩ := (resolutions_iff valid).mp isResolution
    exact ⟨rfl, rfl, isEvent, valid, conflictNode, isConflict, BTreeMap.mem_keys_of_get? found⟩
  · rintro ⟨rfl, rfl, isEvent, accepted⟩
    obtain ⟨other, isOther, member⟩ := accepted.holds
    have sameConflict := Option.some.inj (isOther.symm.trans isConflict)
    rw [sameConflict] at member
    exact BTreeMap.get?_of_mem_keys (fun _ _ found => (reducedResolutions_agrees found).1)
      ((resolutions_iff accepted.valid).mpr ⟨rfl, isEvent⟩) member

theorem confirmationCandidates_iff {candidateId : CandidateId}
    {node : CandidateConfirmationNode} :
    (confirmationCandidates (factsOf events)).get? candidateId = some node ↔
      candidateId = node.confirmation.candidateId ∧ node.event ∈ events ∧
        node.eventId ∉ (factsOf events).invalidEventIds := by
  rw [confirmationCandidates, BTreeMap.get?_filter_eq_some]
  constructor
  · rintro ⟨found, valid⟩
    obtain ⟨keyEq, isEvent⟩ := (confirmationsByCandidate_iff valid).mp found
    exact ⟨keyEq, isEvent, valid⟩
  · rintro ⟨keyEq, isEvent, valid⟩
    exact ⟨(confirmationsByCandidate_iff valid).mpr ⟨keyEq, isEvent⟩, valid⟩

theorem confirmation_eq_of_valid {first second : CandidateConfirmationNode}
    (isFirst : first.event ∈ events) (isSecond : second.event ∈ events)
    (sameId : first.confirmation.confirmationId = second.confirmation.confirmationId)
    (valid : first.eventId ∉ (factsOf events).invalidEventIds) : first = second := by
  have firstEntry : (first.confirmation.confirmationId, first) ∈
      confirmationTable.entries first.event := mem_confirmationTable.mpr ⟨rfl, rfl⟩
  have secondEntry : (first.confirmation.confirmationId, second) ∈
      confirmationTable.entries second.event := mem_confirmationTable.mpr ⟨sameId, rfl⟩
  have found := DefinitionTable.found_of_valid isFirst firstEntry rfl valid
  exact (DefinitionTable.eq_of_found found isSecond secondEntry).symm

/-- The projected confirmations; created Spaces are checked by the acceptance
of the event, not here. -/
theorem candidateConfirmations_iff {confirmationId : ConfirmationId}
    {projection : CandidateConfirmationProjection} :
    (candidateConfirmations hasher (factsOf events)).get? confirmationId = some projection ↔
      ∃ node : CandidateConfirmationNode, node.event ∈ events ∧
        node.eventId ∉ (factsOf events).invalidEventIds ∧
        ConfirmationIsValid hasher (factsOf events) node.confirmation ∧
        node.confirmation.confirmationId = confirmationId ∧
        ⟨node.eventId, node.confirmation⟩ = projection := by
  simp only [candidateConfirmations, BTreeMap.get?_map, Option.map_eq_some_iff]
  have rekeyed : ∀ node, (((confirmationCandidates (factsOf events)).filter fun _ node =>
      ConfirmationIsValid hasher (factsOf events) node.confirmation).rekey
        fun node => node.confirmation.confirmationId).get? confirmationId = some node ↔
      node.event ∈ events ∧ node.eventId ∉ (factsOf events).invalidEventIds ∧
        ConfirmationIsValid hasher (factsOf events) node.confirmation ∧
        node.confirmation.confirmationId = confirmationId := by
    intro node
    rw [BTreeMap.get?_rekey_eq_some]
    · constructor
      · rintro ⟨old, found, sameId⟩
        obtain ⟨candidate, isValid⟩ := BTreeMap.get?_filter_eq_some.mp found
        obtain ⟨-, isEvent, valid⟩ := confirmationCandidates_iff.mp candidate
        exact ⟨isEvent, valid, isValid, sameId⟩
      · rintro ⟨isEvent, valid, isValid, sameId⟩
        refine ⟨node.confirmation.candidateId, BTreeMap.get?_filter_eq_some.mpr ⟨?_, isValid⟩,
          sameId⟩
        exact confirmationCandidates_iff.mpr ⟨rfl, isEvent, valid⟩
    · intro first second left right isLeft isRight sameId
      obtain ⟨rfl, leftEvent, valid⟩ :=
        confirmationCandidates_iff.mp (BTreeMap.get?_filter_eq_some.mp isLeft).1
      obtain ⟨rfl, rightEvent, -⟩ :=
        confirmationCandidates_iff.mp (BTreeMap.get?_filter_eq_some.mp isRight).1
      rw [confirmation_eq_of_valid leftEvent rightEvent sameId valid]
  constructor
  · rintro ⟨node, found, isProjection⟩
    obtain ⟨isEvent, valid, isValid, sameId⟩ := (rekeyed node).mp found
    exact ⟨node, isEvent, valid, isValid, sameId, isProjection⟩
  · rintro ⟨node, isEvent, valid, isValid, sameId, isProjection⟩
    exact ⟨node, (rekeyed node).mpr ⟨isEvent, valid, isValid, sameId⟩, isProjection⟩

/-- A reference resolves when it is well formed and its target revision is valid. -/
theorem resolveReference_eq_ok {facts : Facts} {referenceId : ReferenceId}
    {node : EngineeringReferenceNode} {projection : EngineeringReferenceProjection} :
    resolveReference facts referenceId node = .ok projection ↔
      node.reference.validate = .ok () ∧ ∃ spaceId,
        (spaceId, node.contextId) ∈ (validContexts facts).keys ∧
        node.revisionId ∈ (validRevisions facts (spaceId, node.contextId)).keys ∧
        ⟨node.eventId, spaceId, node.contextId, node.revisionId, node.reference⟩ = projection := by
  unfold resolveReference
  cases wellFormed : node.reference.validate with
  | error error => simp [throw, throwThe, MonadExceptOf.throw]
  | ok passed =>
      simp only [true_and]
      cases holder : contextHolder? (projectSpaces facts) node.contextId with
      | none =>
          simp only [throw, throwThe, MonadExceptOf.throw, reduceCtorEq, false_iff]
          rintro ⟨spaceId, valid, -⟩
          have found := contextHolder?_projectSpaces.mpr ⟨valid, rfl⟩
          rw [holder] at found
          cases found
      | some found =>
          obtain ⟨spaceId, context⟩ := found
          obtain ⟨valid, rfl⟩ := contextHolder?_projectSpaces.mp holder
          have onlySpace : ∀ other, (other, node.contextId) ∈ (validContexts facts).keys →
              other = spaceId := fun other otherValid =>
            validContexts_space_unique otherValid valid
          by_cases member : node.revisionId ∈ (validRevisions facts (spaceId, node.contextId)).keys
          · have projected := mem_keys_projectContext_revisions.mpr member
            simp only [projected, not_true_eq_false, if_false]
            constructor
            · intro isProjection
              exact ⟨spaceId, valid, member, Except.ok.inj isProjection⟩
            · rintro ⟨other, otherValid, -, rfl⟩
              rw [onlySpace other otherValid]
              rfl
          · have absent := mt mem_keys_projectContext_revisions.mp member
            simp only [absent, not_false_eq_true, if_true, throw, throwThe, MonadExceptOf.throw,
              bind, Except.bind, reduceCtorEq, false_iff]
            rintro ⟨other, otherValid, otherMember, -⟩
            rw [onlySpace other otherValid] at otherMember
            exact member otherMember

theorem referenceCandidates_iff {referenceId : ReferenceId} {node : EngineeringReferenceNode} :
    (referenceCandidates (factsOf events)).get? referenceId = some node ↔
      referenceId = node.reference.referenceId ∧ node.event ∈ events ∧
        node.eventId ∉ (factsOf events).invalidEventIds ∧
        definitionCount events (.reference referenceId) = 1 := by
  rw [referenceCandidates, BTreeMap.get?_filter_eq_some, references_iff]
  constructor
  · rintro ⟨⟨keyEq, isEvent, once⟩, valid⟩
    exact ⟨keyEq, isEvent, valid, once⟩
  · rintro ⟨keyEq, isEvent, valid, once⟩
    exact ⟨⟨keyEq, isEvent, once⟩, valid⟩

theorem engineeringReferences_eq_some {facts : Facts} {referenceId : ReferenceId}
    {projection : EngineeringReferenceProjection} :
    (engineeringReferences facts).get? referenceId = some projection ↔
      ∃ node, (referenceCandidates facts).get? referenceId = some node ∧
        resolveReference facts referenceId node = .ok projection := by
  simp only [engineeringReferences, BTreeMap.get?_filterMap, Option.bind_eq_some_iff]
  refine exists_congr fun node => and_congr_right fun _ => ?_
  cases resolveReference facts referenceId node <;> simp [Except.toOption]

theorem engineeringReferences_iff {referenceId : ReferenceId}
    {projection : EngineeringReferenceProjection} :
    (engineeringReferences (factsOf events)).get? referenceId = some projection ↔
      ∃ node : EngineeringReferenceNode, referenceId = node.reference.referenceId ∧
        node.event ∈ events ∧ node.event.Accepted hasher (factsOf events) ∧
        resolveReference (factsOf events) referenceId node = .ok projection := by
  rw [engineeringReferences_eq_some]
  constructor
  · rintro ⟨node, found, resolved⟩
    obtain ⟨rfl, isEvent, valid, -⟩ := referenceCandidates_iff.mp found
    have isProjected := engineeringReferences_eq_some.mpr ⟨node, found, resolved⟩
    exact ⟨node, rfl, isEvent, ⟨valid, BTreeMap.mem_keys_of_get? isProjected⟩, resolved⟩
  · rintro ⟨node, rfl, isEvent, accepted, resolved⟩
    obtain ⟨other, isProjected⟩ := BTreeMap.mem_keys_iff.mp accepted.holds
    obtain ⟨otherNode, found, -⟩ := engineeringReferences_eq_some.mp isProjected
    obtain ⟨-, -, -, once⟩ := referenceCandidates_iff.mp found
    exact ⟨node, referenceCandidates_iff.mpr ⟨rfl, isEvent, accepted.valid, once⟩, resolved⟩

end SharedContext
