import SharedContext.Reducer.Quarantine

/-!
# The quarantine partition

Every schema-valid event is on exactly one side: either it is quarantined and
nothing it declares is projected, or everything it declares is projected.
-/

namespace SharedContext

/-- The facts an event declares, as statements about a projection. -/
def ReducerEvent.declaredFacts (event : ReducerEvent) : List (DomainProjection → Prop) :=
  match event.payload with
  | .contextCandidateCreated candidate =>
      [fun projection => projection.candidates.get? candidate.candidateId =
        some ⟨event.eventId, candidate⟩]
  | .candidateConfirmed confirmation =>
      [fun projection => projection.candidateConfirmations.get? confirmation.confirmationId =
        some ⟨event.eventId, confirmation⟩]
  | .spaceCreated spaceId revision =>
      [fun projection => spaceId ∈ projection.spaces.keys,
        fun projection => ∃ space, projection.spaces.get? spaceId = some space ∧
          space.intent.revisions.get? revision.revisionId = some revision]
  | .spaceIntentRevisionAdded spaceId revision =>
      [fun projection => ∃ space, projection.spaces.get? spaceId = some space ∧
        space.intent.revisions.get? revision.revisionId = some revision]
  | .contextRevisionAdded spaceId contextId revision =>
      [fun projection => ∃ context, contextIn? projection.spaces spaceId contextId = some context ∧
        ∃ projected, context.revisions.get? revision.revisionId = some projected ∧
          projected.revision = revision]
  | .contextReviewed spaceId contextId review =>
      [fun projection => ∃ context, contextIn? projection.spaces spaceId contextId = some context ∧
        context.reviews.get? event.eventId = some review]
  | .contextPublicationChanged spaceId contextId publication =>
      [fun projection => ∃ context, contextIn? projection.spaces spaceId contextId = some context ∧
        context.publications.get? publication.publicationId = some publication]
  | .contextSpaceAssociationChanged association =>
      [fun projection => projection.contextSpaceAssociations.get? association.associationId =
        some ⟨event.eventId, association⟩]
  | .semanticConflictOpened spaceId conflict =>
      [fun projection => ∃ projected,
        projection.semanticConflicts.get? conflict.conflictId = some projected ∧
          projected.spaceId = spaceId ∧ projected.conflict = conflict]
  | .semanticConflictResolutionAdded spaceId conflictId resolution =>
      [fun projection => ∃ projected,
        projection.semanticConflicts.get? conflictId = some projected ∧
          projected.spaceId = spaceId ∧
          projected.resolutions.get? resolution.resolutionId = some resolution]
  | .engineeringReferenceRecorded contextId revisionId reference =>
      [fun projection => ∃ spaceId,
        projection.engineeringReferences.get? reference.referenceId =
          some ⟨event.eventId, spaceId, contextId, revisionId, reference⟩]

theorem ReducerEvent.exists_declaredFact (event : ReducerEvent) :
    ∃ fact, fact ∈ event.declaredFacts := by
  obtain ⟨eventId, payload⟩ := event
  cases payload <;> exact ⟨_, List.mem_cons_self⟩

variable {hasher : ContentHasher} {events : List ReducerEvent}

/-! ### A projected fact stems from its event -/

theorem DefinitionTable.event_eq {kind : IdKind} {ν : Type}
    {table : DefinitionTable (OpaqueId kind) ν} {key : OpaqueId kind} {node other : ν}
    (found : (table.collect events).unique.get? key = some node) {event : ReducerEvent}
    (isEvent : event ∈ events) (isEntry : (key, other) ∈ table.entries event) : node = other :=
  (DefinitionTable.eq_of_found found isEvent isEntry).symm

theorem reviewNodes_distinct {first second : ReviewId} {left right : ReviewNode}
    (isLeft : (reviewNodes (factsOf events)).get? first = some left)
    (isRight : (reviewNodes (factsOf events)).get? second = some right)
    (sameId : left.eventId = right.eventId) : first = second := by
  obtain ⟨leftReview, valid⟩ := reviewNodes_agrees isLeft
  obtain ⟨rfl, leftEvent⟩ := (reviews_iff valid).mp leftReview
  obtain ⟨rightReview, rightValid⟩ := reviewNodes_agrees isRight
  obtain ⟨rfl, rightEvent⟩ := (reviews_iff rightValid).mp rightReview
  have sameEvent := event_eq_of_valid leftEvent rightEvent sameId valid
  simp only [ReviewNode.event, ReducerEvent.mk.injEq, EventPayload.contextReviewed.injEq]
    at sameEvent
  rw [sameEvent.2.2.2]

theorem reviewByEvent_iff {eventId : EventId} {node : ReviewNode} :
    (reviewByEvent (factsOf events)).get? eventId = some node ↔
      node.eventId = eventId ∧
        (reviewNodes (factsOf events)).get? node.review.reviewId = some node := by
  rw [reviewByEvent, BTreeMap.get?_rekey_eq_some]
  · constructor
    · rintro ⟨reviewId, found, sameId⟩
      obtain ⟨isReview, valid⟩ := reviewNodes_agrees found
      obtain ⟨rfl, -⟩ := (reviews_iff valid).mp isReview
      exact ⟨sameId, found⟩
    · rintro ⟨sameId, found⟩
      exact ⟨_, found, sameId⟩
  · exact fun _ _ _ _ isLeft isRight sameId => reviewNodes_distinct isLeft isRight sameId

variable (hasher) in
theorem validReviews_iff {key : ContextKey} {eventId : EventId} {node : ReviewNode} :
    (validReviews (factsOf events) key).get? eventId = some node ↔
      node.eventId = eventId ∧ node.key = key ∧ node.event ∈ events ∧
        node.event.Accepted hasher (factsOf events) := by
  rw [validReviews, BTreeMap.get?_rekey_eq_some]
  · constructor
    · rintro ⟨reviewId, found, sameId⟩
      obtain ⟨isNode, isKey⟩ := BTreeMap.get?_filter_eq_some.mp found
      obtain ⟨-, isEvent, accepted⟩ := (reviewNodes_iff hasher).mp isNode
      exact ⟨sameId, isKey, isEvent, accepted⟩
    · rintro ⟨sameId, isKey, isEvent, accepted⟩
      refine ⟨node.review.reviewId, BTreeMap.get?_filter_eq_some.mpr ⟨?_, isKey⟩, sameId⟩
      exact (reviewNodes_iff hasher).mpr ⟨rfl, isEvent, accepted⟩
  · exact fun _ _ _ _ isLeft isRight sameId => reviewNodes_distinct
      (BTreeMap.get?_filter_eq_some.mp isLeft).1 (BTreeMap.get?_filter_eq_some.mp isRight).1 sameId

theorem get?_projectCandidates {facts : Facts} {candidateId : CandidateId}
    {projection : CandidateProjection} :
    (projectCandidates facts).get? candidateId = some projection ↔
      ∃ node, (facts.candidates.get? candidateId = some node ∧
        node.eventId ∉ facts.invalidEventIds) ∧ ⟨node.eventId, node.candidate⟩ = projection := by
  simp only [projectCandidates, BTreeMap.get?_map, Option.map_eq_some_iff,
    BTreeMap.get?_filter_eq_some]

theorem get?_semanticConflicts {facts : Facts} {conflictId : ConflictId}
    {projection : SemanticConflictProjection} :
    (semanticConflicts facts).get? conflictId = some projection ↔
      ∃ node, (validConflicts facts).get? conflictId = some node ∧
        projectConflict facts conflictId node = projection := by
  simp [semanticConflicts, Option.bind_eq_some_iff]

theorem get?_projectConflict_resolutions {facts : Facts} {conflictId : ConflictId}
    {conflictNode : ConflictNode} {resolutionId : ResolutionId} {resolution : ConflictResolution} :
    (projectConflict facts conflictId conflictNode).resolutions.get? resolutionId =
        some resolution ↔
      ∃ node, (reducedResolutions facts conflictId conflictNode).nodes.get? resolutionId =
        some node ∧ node.resolution = resolution := by
  simp [projectConflict]

theorem get?_projectIntent_revisions {facts : Facts} {spaceId : SpaceId}
    {revisionId : RevisionId} {revision : IntentRevision} :
    (projectIntent facts spaceId).revisions.get? revisionId = some revision ↔
      ∃ node, (reducedIntents facts spaceId).nodes.get? revisionId = some node ∧
        node.revision = revision := by
  simp [projectIntent]

theorem created_eq_primary {confirmation : CandidateConfirmation}
    (isValid : confirmation.validate = .ok ()) {spaceId : SpaceId}
    (created : confirmation.createdSpaceId = some spaceId) :
    spaceId = confirmation.primarySpaceId := by
  unfold CandidateConfirmation.validate at isValid
  obtain ⟨-, isValid⟩ := Result.seq_eq_ok.mp isValid
  by_contra differs
  cases causal : confirmation.causalRefs.spaceCreatedEventId <;>
    simp [created, causal, differs, throw, throwThe, MonadExceptOf.throw, bind, Except.bind]
      at isValid
  all_goals split at isValid <;> cases isValid

theorem accepted_of_space {eventId : EventId} {spaceId : SpaceId} {revision : IntentRevision}
    (isEvent : (⟨eventId, .spaceCreated spaceId revision⟩ : ReducerEvent) ∈ events)
    (isRoot : revision.parentRevisionIds = [])
    (isSpace : spaceId ∈ validSpaces (factsOf events)) :
    (⟨eventId, .spaceCreated spaceId revision⟩ : ReducerEvent).Accepted hasher
      (factsOf events) := by
  let node : IntentNode := ⟨eventId, spaceId, revision⟩
  obtain ⟨creator, found, valid⟩ := mem_validSpaces.mp isSpace
  rw [factsOf_spaceCreations] at found
  obtain rfl : creator = node := DefinitionTable.event_eq found isEvent
    (mem_spaceCreationTable.mpr ⟨rfl, rfl⟩)
  have isIntent := (intents_iff valid).mpr ⟨rfl, .inl isEvent⟩
  have candidate : (intentCandidates (factsOf events) spaceId).get? revision.revisionId =
      some node := BTreeMap.get?_filter_eq_some.mpr ⟨isIntent, rfl, valid⟩
  have grounded : CausalGraph.Grounded (intentCandidates (factsOf events) spaceId)
      IntentNode.parents revision.revisionId := .of_no_parents candidate isRoot
  exact ⟨valid, isSpace,
    BTreeMap.mem_keys_of_get? (get?_reducedIntents.mpr ⟨candidate, grounded⟩)⟩

theorem facts_of_accepted {event : ReducerEvent} (isEvent : event ∈ events)
    (accepted : event.Accepted hasher (factsOf events)) :
    ∀ fact ∈ event.declaredFacts, fact (reduce events hasher) := by
  obtain ⟨eventId, payload⟩ := event
  have intentFact : ∀ {spaceId revision}, (⟨eventId, spaceId, revision⟩ : IntentNode).creation ∈
      events ∧ (⟨eventId, spaceId, revision⟩ : IntentNode).creation.Accepted hasher
        (factsOf events) ∨ (⟨eventId, spaceId, revision⟩ : IntentNode).addition ∈
      events ∧ (⟨eventId, spaceId, revision⟩ : IntentNode).addition.Accepted hasher
        (factsOf events) → spaceId ∈ validSpaces (factsOf events) →
      ∃ space, (reduce events hasher).spaces.get? spaceId = some space ∧
        space.intent.revisions.get? revision.revisionId = some revision := by
    intro spaceId revision isNode isSpace
    have found := (reducedIntents_iff hasher isSpace).mpr ⟨rfl, rfl, isNode⟩
    exact ⟨_, get?_reduce_spaces.mpr ⟨isSpace, rfl⟩,
      get?_projectIntent_revisions.mpr ⟨_, found, rfl⟩⟩
  cases payload with
  | contextCandidateCreated candidate =>
      rintro fact (_ | ⟨_, ⟨⟩⟩)
      exact get?_projectCandidates.mpr ⟨⟨eventId, candidate⟩,
        (validCandidates_iff hasher).mpr ⟨rfl, isEvent, accepted⟩, rfl⟩
  | candidateConfirmed confirmation =>
      rintro fact (_ | ⟨_, ⟨⟩⟩)
      exact (candidateConfirmations_iff hasher).mpr ⟨⟨eventId, confirmation⟩, isEvent, accepted.valid,
        accepted.holds.2, rfl, rfl⟩
  | spaceCreated spaceId revision =>
      have isSpace := accepted.holds.1
      rintro fact (_ | ⟨_, _ | ⟨_, ⟨⟩⟩⟩)
      · exact BTreeMap.mem_keys_of_get? (get?_reduce_spaces.mpr ⟨isSpace, rfl⟩)
      · exact intentFact (.inl ⟨isEvent, accepted⟩) isSpace
  | spaceIntentRevisionAdded spaceId revision =>
      rintro fact (_ | ⟨_, ⟨⟩⟩)
      exact intentFact (.inr ⟨isEvent, accepted⟩) accepted.holds.1
  | contextRevisionAdded spaceId contextId revision =>
      rintro fact (_ | ⟨_, ⟨⟩⟩)
      have found : (validRevisions (factsOf events) (spaceId, contextId)).get?
          revision.revisionId = some ⟨eventId, spaceId, contextId, revision⟩ :=
        (validRevisions_iff hasher).mpr ⟨rfl, rfl, isEvent, accepted⟩
      exact ⟨_, contextIn?_reduce.mpr ⟨mem_keys_validContexts.mpr ⟨_, _, found⟩, rfl⟩, _,
        get?_projectContext_revisions.mpr ⟨_, found, rfl⟩, rfl⟩
  | contextReviewed spaceId contextId review =>
      rintro fact (_ | ⟨_, ⟨⟩⟩)
      obtain ⟨owner, isOwner, isContext⟩ :=
        contexts_of_accepted isEvent accepted (List.mem_singleton_self contextId)
      obtain rfl := Finset.mem_singleton.mp isOwner
      have found : (validReviews (factsOf events) (owner, contextId)).get? eventId =
          some ⟨eventId, owner, contextId, review⟩ :=
        (validReviews_iff hasher).mpr ⟨rfl, rfl, isEvent, accepted⟩
      refine ⟨_, contextIn?_reduce.mpr ⟨isContext, rfl⟩, ?_⟩
      change ((validReviews _ _).map ReviewNode.review).get? eventId = some review
      rw [BTreeMap.get?_map]
      exact congrArg (Option.map ReviewNode.review) found
  | contextPublicationChanged spaceId contextId publication =>
      rintro fact (_ | ⟨_, ⟨⟩⟩)
      have isPublication : (spaceId, contextId) ∈ (validContexts (factsOf events)).keys ∧
          (validPublications (factsOf events) (spaceId, contextId)).get?
            publication.publicationId = some ⟨eventId, spaceId, contextId, publication⟩ :=
        (validPublications_iff hasher).mpr ⟨rfl, rfl, isEvent, accepted⟩
      obtain ⟨isContext, found⟩ := isPublication
      exact ⟨_, contextIn?_reduce.mpr ⟨isContext, rfl⟩,
        get?_projectContext_publications.mpr ⟨_, found, rfl⟩⟩
  | contextSpaceAssociationChanged association =>
      rintro fact (_ | ⟨_, ⟨⟩⟩)
      exact contextSpaceAssociations_eq_some.mpr ⟨⟨eventId, association⟩,
        (reducedAssociations_iff hasher).mpr ⟨rfl, rfl, isEvent, accepted⟩, rfl⟩
  | semanticConflictOpened spaceId conflict =>
      rintro fact (_ | ⟨_, ⟨⟩⟩)
      have found : (validConflicts (factsOf events)).get? conflict.conflictId =
          some ⟨eventId, spaceId, conflict⟩ :=
        (validConflicts_iff hasher).mpr ⟨rfl, isEvent, accepted⟩
      exact ⟨_, get?_semanticConflicts.mpr ⟨_, found, rfl⟩, rfl, rfl⟩
  | semanticConflictResolutionAdded spaceId conflictId resolution =>
      rintro fact (_ | ⟨_, ⟨⟩⟩)
      obtain ⟨conflictNode, isConflict, sameSpace, -⟩ := resolution_of_accepted
        ⟨eventId, spaceId, conflictId, resolution⟩ isEvent accepted
      have found : (reducedResolutions (factsOf events) conflictId conflictNode).nodes.get?
          resolution.resolutionId = some ⟨eventId, spaceId, conflictId, resolution⟩ :=
        (reducedResolutions_iff hasher isConflict).mpr ⟨rfl, rfl, isEvent, accepted⟩
      exact ⟨_, get?_semanticConflicts.mpr ⟨_, isConflict, rfl⟩, sameSpace.symm,
        get?_projectConflict_resolutions.mpr ⟨_, found, rfl⟩⟩
  | engineeringReferenceRecorded contextId revisionId reference =>
      rintro fact (_ | ⟨_, ⟨⟩⟩)
      obtain ⟨projection, found⟩ := BTreeMap.mem_keys_iff.mp accepted.holds
      obtain ⟨node, isNode, resolved⟩ := engineeringReferences_eq_some.mp found
      have isReference := (BTreeMap.get?_filter_eq_some.mp isNode).1
      rw [factsOf_references] at isReference
      obtain rfl : node = ⟨eventId, contextId, revisionId, reference⟩ :=
        DefinitionTable.event_eq isReference isEvent (mem_referenceTable.mpr ⟨rfl, rfl⟩)
      obtain ⟨-, spaceId, -, -, rfl⟩ := resolveReference_eq_ok.mp resolved
      exact ⟨spaceId, found⟩

theorem accepted_of_fact {event : ReducerEvent} (isEvent : event ∈ events)
    (schemaValid : event.SchemaValid) {fact : DomainProjection → Prop}
    (declared : fact ∈ event.declaredFacts) (holds : fact (reduce events hasher)) :
    event.Accepted hasher (factsOf events) := by
  obtain ⟨eventId, payload⟩ := event
  cases payload with
  | contextCandidateCreated candidate =>
      obtain rfl := List.mem_singleton.mp declared
      obtain ⟨⟨_, _⟩, found, isProjection⟩ := get?_projectCandidates.mp holds
      cases isProjection
      exact ((validCandidates_iff hasher).mp found).2.2
  | candidateConfirmed confirmation =>
      obtain rfl := List.mem_singleton.mp declared
      obtain ⟨⟨_, _⟩, -, valid, isValid, -, isProjection⟩ := (candidateConfirmations_iff hasher).mp holds
      cases isProjection
      refine ⟨valid, fun spaceId created => ?_, isValid⟩
      rw [created_eq_primary schemaValid created]
      exact isValid.spaces.1
  | spaceCreated spaceId revision =>
      have isRoot : revision.parentRevisionIds = [] := by
        simp only [ReducerEvent.SchemaValid, EventPayload.validate] at schemaValid
        by_contra notRoot
        simp [notRoot, throw, throwThe, MonadExceptOf.throw, bind, Except.bind] at schemaValid
      apply accepted_of_space isEvent isRoot
      simp only [ReducerEvent.declaredFacts, List.mem_cons, List.not_mem_nil, or_false] at declared
      rcases declared with rfl | rfl
      · obtain ⟨space, found⟩ := BTreeMap.mem_keys_iff.mp holds
        exact (get?_reduce_spaces.mp found).1
      · obtain ⟨space, found, -⟩ := holds
        exact (get?_reduce_spaces.mp found).1
  | spaceIntentRevisionAdded spaceId revision =>
      obtain rfl := List.mem_singleton.mp declared
      obtain ⟨_, found, isRevision⟩ := holds
      obtain ⟨isSpace, rfl⟩ := get?_reduce_spaces.mp found
      obtain ⟨node, isNode, -⟩ := get?_projectIntent_revisions.mp isRevision
      obtain ⟨isIntent, -, valid⟩ := intentCandidates_agrees isNode
      rw [factsOf_intents] at isIntent
      obtain rfl : node = ⟨eventId, spaceId, revision⟩ :=
        DefinitionTable.event_eq isIntent isEvent (mem_intentTable.mpr ⟨rfl, .inr rfl⟩)
      exact ⟨valid, isSpace, BTreeMap.mem_keys_of_get? isNode⟩
  | contextRevisionAdded spaceId contextId revision =>
      obtain rfl := List.mem_singleton.mp declared
      obtain ⟨_, found, projected, isRevision, -⟩ := holds
      obtain ⟨-, rfl⟩ := contextIn?_reduce.mp found
      obtain ⟨node, isNode, -⟩ := get?_projectContext_revisions.mp isRevision
      obtain ⟨isContext, -, valid⟩ := contextCandidates_agrees isNode
      rw [factsOf_contexts] at isContext
      obtain rfl : node = ⟨eventId, spaceId, contextId, revision⟩ :=
        DefinitionTable.event_eq isContext isEvent (mem_contextTable.mpr ⟨rfl, rfl⟩)
      exact ⟨valid, BTreeMap.mem_keys_of_get? isNode⟩
  | contextReviewed spaceId contextId review =>
      obtain rfl := List.mem_singleton.mp declared
      obtain ⟨_, found, isReview⟩ := holds
      obtain ⟨-, rfl⟩ := contextIn?_reduce.mp found
      change ((validReviews _ _).map ReviewNode.review).get? eventId = some review at isReview
      rw [BTreeMap.get?_map, Option.map_eq_some_iff] at isReview
      obtain ⟨node, isNode, -⟩ := isReview
      obtain ⟨sameId, -, nodeEvent, accepted⟩ := (validReviews_iff hasher).mp isNode
      rw [event_eq_of_valid nodeEvent isEvent sameId accepted.valid] at accepted
      exact accepted
  | contextPublicationChanged spaceId contextId publication =>
      obtain rfl := List.mem_singleton.mp declared
      obtain ⟨_, found, isPublication⟩ := holds
      obtain ⟨isContext, rfl⟩ := contextIn?_reduce.mp found
      obtain ⟨node, isNode, -⟩ := get?_projectContext_publications.mp isPublication
      obtain ⟨isUnique, valid, -⟩ := validPublications_agrees isNode
      rw [factsOf_publications] at isUnique
      obtain rfl : node = ⟨eventId, spaceId, contextId, publication⟩ :=
        DefinitionTable.event_eq isUnique isEvent (mem_publicationTable.mpr ⟨rfl, rfl⟩)
      exact ⟨valid, isContext, BTreeMap.mem_keys_of_get? isNode⟩
  | contextSpaceAssociationChanged association =>
      obtain rfl := List.mem_singleton.mp declared
      obtain ⟨⟨_, _⟩, isNode, isProjection⟩ := contextSpaceAssociations_eq_some.mp holds
      cases isProjection
      exact ((reducedAssociations_iff hasher).mp isNode).2.2.2
  | semanticConflictOpened spaceId conflict =>
      obtain rfl := List.mem_singleton.mp declared
      obtain ⟨_, found, -⟩ := holds
      obtain ⟨node, isNode, -⟩ := get?_semanticConflicts.mp found
      obtain ⟨isUnique, valid, -⟩ := validConflicts_agrees isNode
      rw [factsOf_conflicts] at isUnique
      obtain rfl : node = ⟨eventId, spaceId, conflict⟩ :=
        DefinitionTable.event_eq isUnique isEvent (mem_conflictTable.mpr ⟨rfl, rfl⟩)
      exact ⟨valid, BTreeMap.mem_keys_of_get? isNode⟩
  | semanticConflictResolutionAdded spaceId conflictId resolution =>
      obtain rfl := List.mem_singleton.mp declared
      obtain ⟨_, found, -, isResolution⟩ := holds
      obtain ⟨conflictNode, isConflict, rfl⟩ := get?_semanticConflicts.mp found
      obtain ⟨node, isNode, -⟩ := get?_projectConflict_resolutions.mp isResolution
      obtain ⟨isUnique, valid, -⟩ := reducedResolutions_agrees isNode
      rw [factsOf_resolutions] at isUnique
      obtain rfl : node = ⟨eventId, spaceId, conflictId, resolution⟩ :=
        DefinitionTable.event_eq isUnique isEvent (mem_resolutionTable.mpr ⟨rfl, rfl⟩)
      exact ⟨valid, conflictNode, isConflict, BTreeMap.mem_keys_of_get? isNode⟩
  | engineeringReferenceRecorded contextId revisionId reference =>
      obtain rfl := List.mem_singleton.mp declared
      obtain ⟨spaceId, found⟩ := holds
      obtain ⟨node, isNode, -⟩ := engineeringReferences_eq_some.mp found
      obtain ⟨isReference, valid⟩ := BTreeMap.get?_filter_eq_some.mp isNode
      rw [factsOf_references] at isReference
      obtain rfl : node = ⟨eventId, contextId, revisionId, reference⟩ :=
        DefinitionTable.event_eq isReference isEvent (mem_referenceTable.mpr ⟨rfl, rfl⟩)
      exact ⟨valid, BTreeMap.mem_keys_of_get? found⟩

/-- Every schema-valid event is on exactly one side: it is quarantined and
nothing it declares is projected, or everything it declares is projected. -/
theorem reduce_partition {event : ReducerEvent} (isEvent : event ∈ events)
    (schemaValid : event.SchemaValid) :
    Xor (event.eventId ∈ (reduce events hasher).quarantinedEventIds)
        (∀ fact ∈ event.declaredFacts, fact (reduce events hasher)) ∧
      (event.eventId ∈ (reduce events hasher).quarantinedEventIds →
        ∀ fact ∈ event.declaredFacts, ¬ fact (reduce events hasher)) := by
  rw [quarantined_iff isEvent]
  have noFact : ¬ event.Accepted hasher (factsOf events) →
      ∀ fact ∈ event.declaredFacts, ¬ fact (reduce events hasher) :=
    fun rejected fact declared holds =>
      rejected (accepted_of_fact isEvent schemaValid declared holds)
  refine ⟨?_, noFact⟩
  by_cases accepted : event.Accepted hasher (factsOf events)
  · exact .inr ⟨facts_of_accepted isEvent accepted, not_not_intro accepted⟩
  · refine .inl ⟨accepted, fun allHold => ?_⟩
    obtain ⟨fact, declared⟩ := event.exists_declaredFact
    exact noFact accepted fact declared (allHold fact declared)

theorem reduce_partition_sample :
    Xor (sampleOrphan.eventId ∈
          (reduce [sampleSuccessor, sampleOrphan, sampleCreation] sampleHasher).quarantinedEventIds)
        (∀ fact ∈ sampleOrphan.declaredFacts,
          fact (reduce [sampleSuccessor, sampleOrphan, sampleCreation] sampleHasher)) ∧
      (sampleOrphan.eventId ∈
          (reduce [sampleSuccessor, sampleOrphan, sampleCreation] sampleHasher).quarantinedEventIds →
        ∀ fact ∈ sampleOrphan.declaredFacts,
          ¬ fact (reduce [sampleSuccessor, sampleOrphan, sampleCreation] sampleHasher)) :=
  reduce_partition (List.mem_cons_of_mem _ List.mem_cons_self) rfl

end SharedContext
