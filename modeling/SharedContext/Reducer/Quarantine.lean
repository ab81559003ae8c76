import SharedContext.Reducer.Acceptance

/-!
# Quarantine

The diagnostics of every phase blame only rejected events, and every rejected
event is blamed by some phase.  Hence an event is quarantined exactly when it
is not accepted.
-/

namespace SharedContext

variable {hasher : ContentHasher} {events : List ReducerEvent}

/-! ### Consequences of acceptance -/

theorem participantRevision?_eq_some {facts : Facts} {spaceId : SpaceId}
    {participant : ConflictParticipant} {revision : ContextRevision} :
    participantRevision? (projectSpaces facts) spaceId participant = some revision ↔
      (spaceId, participant.contextId) ∈ (validContexts facts).keys ∧
      (∃ node, (validPublications facts (spaceId, participant.contextId)).get?
          participant.publicationId = some node ∧ node.publication.action = .publish ∧
        node.publication.revisionId = participant.revisionId) ∧
      ∃ node, (validRevisions facts (spaceId, participant.contextId)).get?
          participant.revisionId = some node ∧ node.revision.kind.isGoverned = true ∧
        node.revision = revision := by
  simp only [participantRevision?, Option.bind_eq_some_iff, contextIn?_projectSpaces,
    Option.ite_none_right_eq_some, Option.some.injEq]
  constructor
  · rintro ⟨_, ⟨valid, rfl⟩, publication, isPublication, _, isRevision, ⟨action, sameRevision,
      governed⟩, rfl⟩
    obtain ⟨publicationNode, foundPublication, rfl⟩ :=
      get?_projectContext_publications.mp isPublication
    obtain ⟨node, found, rfl⟩ := get?_projectContext_revisions.mp isRevision
    exact ⟨valid, ⟨publicationNode, foundPublication, action, sameRevision⟩,
      node, found, governed, rfl⟩
  · rintro ⟨valid, ⟨publicationNode, foundPublication, action, sameRevision⟩,
      node, found, governed, rfl⟩
    exact ⟨_, ⟨valid, rfl⟩, publicationNode.publication,
      get?_projectContext_publications.mpr ⟨publicationNode, foundPublication, rfl⟩, _,
      get?_projectContext_revisions.mpr ⟨node, found, rfl⟩, ⟨action, sameRevision, governed⟩, rfl⟩

theorem participant_valid {facts : Facts} {node : ConflictNode}
    (isValid : conflictIsValid (projectSpaces facts) node) {contextId : ContextId}
    (member : contextId ∈ participantContexts node.conflict) :
    (node.spaceId, contextId) ∈ (validContexts facts).keys := by
  obtain ⟨-, revisions, found, -⟩ := isValid
  rw [participantContexts, List.mem_toFinset, List.mem_map] at member
  obtain ⟨participant, isParticipant, rfl⟩ := member
  obtain ⟨revision, -, isRevision⟩ := exists_of_forall₂ (mapM_eq_some.mp found) isParticipant
  exact (participantRevision?_eq_some.mp isRevision).1

theorem mem_keys_projectSpaces {facts : Facts} {spaceId : SpaceId} :
    spaceId ∈ (projectSpaces facts).keys ↔ spaceId ∈ validSpaces facts := by
  simp [BTreeMap.mem_keys_iff, get?_projectSpaces]

theorem conflict_of_accepted (node : ConflictNode) (isEvent : node.event ∈ events)
    (accepted : node.event.Accepted hasher (factsOf events)) :
    (validConflicts (factsOf events)).get? node.conflict.conflictId = some node ∧
      conflictIsValid (projectSpaces (factsOf events)) node := by
  have found := (validConflicts_iff hasher).mpr ⟨rfl, isEvent, accepted⟩
  exact ⟨found, (validConflicts_agrees found).2.2⟩

/-- The table entry of an accepted resolution, its conflict, and what it was
checked for. -/
theorem resolution_of_accepted (node : ResolutionNode) (isEvent : node.event ∈ events)
    (accepted : node.event.Accepted hasher (factsOf events)) :
    ∃ conflictNode, (validConflicts (factsOf events)).get? node.conflictId = some conflictNode ∧
      node.spaceId = conflictNode.spaceId ∧
      conflictIsValid (projectSpaces (factsOf events)) conflictNode ∧
      resolutionIsValid (factsOf events) conflictNode node.resolution := by
  obtain ⟨conflictNode, isConflict, -⟩ := accepted.holds
  have found := (reducedResolutions_iff hasher isConflict).mpr ⟨rfl, rfl, isEvent, accepted⟩
  obtain ⟨-, -, -, sameSpace, isValid⟩ := reducedResolutions_agrees found
  exact ⟨conflictNode, isConflict, sameSpace, (validConflicts_agrees isConflict).2.2, isValid⟩

/-- Every Context an accepted event mentions is valid in the event's Space. -/
theorem contexts_of_accepted {event : ReducerEvent} (isEvent : event ∈ events)
    (accepted : event.Accepted hasher (factsOf events)) {contextId : ContextId}
    (mentioned : contextId ∈ event.mentionedContexts) :
    ∃ spaceId ∈ event.referencedSpaces,
      (spaceId, contextId) ∈ (validContexts (factsOf events)).keys := by
  obtain ⟨eventId, payload⟩ := event
  cases payload with
  | contextRevisionAdded spaceId owner revision =>
      obtain rfl := List.mem_singleton.mp mentioned
      obtain ⟨node, found⟩ := BTreeMap.mem_keys_iff.mp accepted.holds
      exact ⟨spaceId, Finset.mem_singleton_self _, mem_keys_validContexts.mpr ⟨_, node, found⟩⟩
  | contextReviewed spaceId owner review =>
      obtain rfl := List.mem_singleton.mp mentioned
      have found : (reviewNodes (factsOf events)).get? review.reviewId =
          some ⟨eventId, spaceId, contextId, review⟩ :=
        (reviewNodes_iff hasher).mpr ⟨rfl, isEvent, accepted⟩
      obtain ⟨-, target⟩ := BTreeMap.get?_filter_eq_some.mp found
      obtain ⟨node, isRevision⟩ := BTreeMap.mem_keys_iff.mp target
      exact ⟨spaceId, Finset.mem_singleton_self _,
        mem_keys_validContexts.mpr ⟨_, node, isRevision⟩⟩
  | contextPublicationChanged spaceId owner publication =>
      obtain rfl := List.mem_singleton.mp mentioned
      exact ⟨spaceId, Finset.mem_singleton_self _, accepted.holds.1⟩
  | semanticConflictOpened spaceId conflict =>
      obtain ⟨-, isValid⟩ := conflict_of_accepted ⟨eventId, spaceId, conflict⟩
        isEvent accepted
      refine ⟨spaceId, Finset.mem_singleton_self _, participant_valid isValid ?_⟩
      exact List.mem_toFinset.mpr mentioned
  | semanticConflictResolutionAdded spaceId conflictId resolution =>
      obtain ⟨conflictNode, -, sameSpace, isValid, ⟨sameContexts, -⟩, -⟩ :=
        resolution_of_accepted ⟨eventId, spaceId, conflictId, resolution⟩
          isEvent accepted
      refine ⟨spaceId, Finset.mem_singleton_self _, ?_⟩
      have isParticipant : contextId ∈ participantContexts conflictNode.conflict := by
        rw [← sameContexts]
        exact List.mem_toFinset.mpr mentioned
      have found := participant_valid isValid isParticipant
      rw [← sameSpace] at found
      exact found
  | _ => cases mentioned

theorem spaces_of_accepted {event : ReducerEvent} (isEvent : event ∈ events)
    (accepted : event.Accepted hasher (factsOf events)) {spaceId : SpaceId}
    (referenced : spaceId ∈ event.referencedSpaces) : spaceId ∈ validSpaces (factsOf events) := by
  obtain ⟨eventId, payload⟩ := event
  cases payload with
  | candidateConfirmed confirmation =>
      obtain ⟨created, isValid⟩ := accepted.holds
      obtain ⟨primary, related⟩ := isValid.spaces
      simp only [ReducerEvent.referencedSpaces, Finset.mem_union, Finset.mem_singleton,
        List.mem_toFinset, Option.mem_toFinset] at referenced
      rcases referenced with (rfl | isRelated) | isCreated
      · exact primary
      · exact related spaceId isRelated
      · exact created spaceId isCreated
  | contextSpaceAssociationChanged association =>
      have found : (reducedAssociations (factsOf events) association.contextId).nodes.get?
          association.associationId = some ⟨eventId, association⟩ :=
        (reducedAssociations_iff hasher).mpr ⟨rfl, rfl, isEvent, accepted⟩
      obtain ⟨-, -, -, ⟨primary, related⟩, -⟩ := reducedAssociations_agrees found
      simp only [ReducerEvent.referencedSpaces, Finset.mem_union, Finset.mem_singleton,
        List.mem_toFinset] at referenced
      rcases referenced with rfl | isRelated
      · exact primary
      · exact related spaceId isRelated
  | spaceIntentRevisionAdded owner revision =>
      obtain rfl := Finset.mem_singleton.mp referenced
      exact accepted.holds.1
  | contextRevisionAdded owner contextId revision =>
      obtain ⟨holder, isHolder, valid⟩ :=
        contexts_of_accepted isEvent accepted (List.mem_singleton_self contextId)
      rw [Finset.mem_singleton.mp referenced, ← Finset.mem_singleton.mp isHolder]
      exact mem_validSpaces_of_valid valid
  | contextReviewed owner contextId review =>
      obtain ⟨holder, isHolder, valid⟩ :=
        contexts_of_accepted isEvent accepted (List.mem_singleton_self contextId)
      rw [Finset.mem_singleton.mp referenced, ← Finset.mem_singleton.mp isHolder]
      exact mem_validSpaces_of_valid valid
  | contextPublicationChanged owner contextId publication =>
      obtain rfl := Finset.mem_singleton.mp referenced
      exact mem_validSpaces_of_valid accepted.holds.1
  | semanticConflictOpened owner conflict =>
      obtain rfl := Finset.mem_singleton.mp referenced
      obtain ⟨-, isValid⟩ := conflict_of_accepted ⟨eventId, spaceId, conflict⟩
        isEvent accepted
      exact mem_keys_projectSpaces.mp isValid.1
  | semanticConflictResolutionAdded owner conflictId resolution =>
      obtain rfl := Finset.mem_singleton.mp referenced
      obtain ⟨conflictNode, -, sameSpace, isValid, -⟩ :=
        resolution_of_accepted ⟨eventId, spaceId, conflictId, resolution⟩
          isEvent accepted
      have isSpace := mem_keys_projectSpaces.mp isValid.1
      rw [← sameSpace] at isSpace
      exact isSpace
  | _ => cases referenced

/-- No identity of an accepted event is defined twice. -/
theorem unique_of_accepted {event : ReducerEvent} (isEvent : event ∈ events)
    (accepted : event.Accepted hasher (factsOf events)) : event.UniqueIn events := by
  intro identity member
  by_cases invalidates : identity.invalidates = true
  · exact count_of_valid isEvent accepted.valid member invalidates
  obtain ⟨eventId, payload⟩ := event
  cases identity with
  | reference referenceId =>
      cases payload <;>
        simp [ReducerEvent.identities, ReducerEvent.entityIdentities] at member
      rename_i reference
      obtain ⟨projection, found⟩ := BTreeMap.mem_keys_iff.mp accepted.holds
      obtain ⟨node, isNode, -⟩ := engineeringReferences_eq_some.mp found
      rw [member]
      exact (referenceCandidates_iff.mp isNode).2.2.2
  | spaceCreation spaceId =>
      cases payload <;>
        simp [ReducerEvent.identities, ReducerEvent.entityIdentities] at member
      obtain ⟨node, found, -⟩ := mem_validSpaces.mp accepted.holds.1
      rw [member]
      exact (spaceCreations_iff.mp found).2.2
  | _ => exact absurd rfl invalidates

/-! ### Diagnostics blame rejected events -/

/-- Some event of the input with this ID is not accepted. -/
def Rejected (hasher : ContentHasher) (events : List ReducerEvent) (id : EventId) : Prop :=
  ∃ event ∈ events, event.eventId = id ∧ ¬ event.Accepted hasher (factsOf events)

theorem rejected_of_repeats {id : EventId} (repeated : Repeats events (fun _ => true) id) :
    Rejected hasher events id := by
  obtain ⟨event, isEvent, sameId, identity, member, -, several⟩ := repeated
  refine ⟨event, isEvent, sameId, fun accepted => ?_⟩
  have once := unique_of_accepted isEvent accepted identity member
  omega

theorem rejected_of_ambiguousOwner {id : EventId}
    (isBlamed : id ∈ blamed (ambiguousOwnerDiagnostics events (factsOf events).contextOwners)) :
    Rejected hasher events id := by
  obtain ⟨contextId, owners, found, inDiagnostic⟩ := mem_blamed_flatMap.mp isBlamed
  obtain ⟨several, named⟩ := mem_blamed_diagnoseUnless.mp inDiagnostic
  simp only [List.mem_toFinset, List.mem_map, List.mem_filter, decide_eq_true_eq] at named
  obtain ⟨event, ⟨isEvent, mentioned⟩, sameId⟩ := named
  refine ⟨event, isEvent, sameId, fun accepted => ?_⟩
  obtain ⟨spaceId, -, valid⟩ := contexts_of_accepted isEvent accepted mentioned
  have owned := (mem_ownedContexts.mp (mem_ownedContexts_of_valid valid)).1
  have sole := Option.some.inj (found.symm.trans owned)
  rw [sole, Finset.card_singleton] at several
  exact several le_rfl

theorem mem_blamed_missingSpaceDiagnostics {valid : Finset SpaceId} {id : EventId} :
    id ∈ blamed (missingSpaceDiagnostics events valid) ↔
      ∃ event ∈ events, event.eventId = id ∧ ∃ spaceId ∈ event.referencedSpaces,
        spaceId ∉ valid := by
  simp only [missingSpaceDiagnostics, mem_blamed_collect, mem_blamed_biUnion,
    mem_blamed_diagnoseUnless, Finset.mem_singleton]
  constructor
  · rintro ⟨event, isEvent, spaceId, referenced, missing, rfl⟩
    exact ⟨event, isEvent, rfl, spaceId, referenced, missing⟩
  · rintro ⟨event, isEvent, rfl, spaceId, referenced, missing⟩
    exact ⟨event, isEvent, spaceId, referenced, missing, rfl⟩

theorem rejected_of_missingSpace {id : EventId}
    (isBlamed : id ∈ blamed (missingSpaceDiagnostics events (validSpaces (factsOf events)))) :
    Rejected hasher events id := by
  obtain ⟨event, isEvent, sameId, spaceId, referenced, missing⟩ :=
    mem_blamed_missingSpaceDiagnostics.mp isBlamed
  exact ⟨event, isEvent, sameId, fun accepted =>
    missing (spaces_of_accepted isEvent accepted referenced)⟩

theorem mem_blamed_intentDiagnostics {facts : Facts} {id : EventId} :
    id ∈ blamed (intentDiagnostics facts) ↔
      ∃ spaceId ∈ validSpaces facts, ∃ key node,
        (intentCandidates facts spaceId).get? key = some node ∧
        ¬ CausalGraph.Grounded (intentCandidates facts spaceId) IntentNode.parents key ∧
        node.eventId = id := by
  simp only [intentDiagnostics, mem_blamed_biUnion, reducedIntents, mem_blamed_reduceDag]

theorem rejected_of_intent {id : EventId}
    (isBlamed : id ∈ blamed (intentDiagnostics (factsOf events))) :
    Rejected hasher events id := by
  obtain ⟨spaceId, -, key, node, candidate, ungrounded, rfl⟩ :=
    mem_blamed_intentDiagnostics.mp isBlamed
  obtain ⟨isIntent, rfl, valid⟩ := BTreeMap.get?_filter_eq_some.mp candidate
  obtain ⟨rfl, isEvent⟩ := (intents_iff valid).mp isIntent
  have absent : ¬ (node.spaceId ∈ validSpaces (factsOf events) ∧
      node.revision.revisionId ∈
        (reducedIntents (factsOf events) node.spaceId).nodes.keys) := by
    rintro ⟨-, member⟩
    obtain ⟨other, found⟩ := BTreeMap.mem_keys_iff.mp member
    exact ungrounded (get?_reducedIntents.mp found).2
  rcases isEvent with isEvent | isEvent
  · exact ⟨_, isEvent, rfl, fun accepted => absent accepted.holds⟩
  · exact ⟨_, isEvent, rfl, fun accepted => absent accepted.holds⟩

theorem mem_blamed_contextDiagnostics {facts : Facts} {id : EventId} :
    id ∈ blamed (contextDiagnostics facts) ↔
      ∃ key ∈ ownedContexts facts, ∃ revisionId node,
        (contextCandidates facts key).get? revisionId = some node ∧
        ¬ CausalGraph.Grounded (contextCandidates facts key) ContextNode.parents revisionId ∧
        node.eventId = id := by
  simp only [contextDiagnostics, mem_blamed_biUnion, reducedRevisions, mem_blamed_reduceDag]

theorem rejected_of_invalidRevision {key : ContextKey} {revisionId : RevisionId}
    {node : ContextNode}
    (candidate : (contextCandidates (factsOf events) key).get? revisionId = some node)
    (absent : revisionId ∉ (validRevisions (factsOf events) key).keys) :
    Rejected hasher events node.eventId := by
  obtain ⟨isContext, isSpace, isKey, valid⟩ := BTreeMap.get?_filter_eq_some.mp candidate
  obtain ⟨rfl, isEvent⟩ := (contexts_iff valid).mp isContext
  have sameKey : (node.spaceId, node.contextId) = key := Prod.ext isSpace isKey
  exact ⟨node.event, isEvent, rfl, fun accepted => absent (sameKey ▸ accepted.holds)⟩

theorem rejected_of_context {id : EventId}
    (isBlamed : id ∈ blamed (contextDiagnostics (factsOf events))) :
    Rejected hasher events id := by
  obtain ⟨key, -, revisionId, node, candidate, ungrounded, rfl⟩ :=
    mem_blamed_contextDiagnostics.mp isBlamed
  apply rejected_of_invalidRevision candidate
  intro member
  obtain ⟨other, found⟩ := BTreeMap.mem_keys_iff.mp member
  exact ungrounded (get?_validRevisions_eq_some.mp found).2.2.1

theorem rejected_of_relation {id : EventId}
    (isBlamed : id ∈ blamed (relationDiagnostics (factsOf events))) :
    Rejected hasher events id := by
  obtain ⟨key, revisionId, node, found, removed, rfl⟩ := mem_blamed_relationClosure.mp isBlamed
  apply rejected_of_invalidRevision (revision?_reducedContexts.mp found).2.1
  intro member
  obtain ⟨other, isValid⟩ := BTreeMap.mem_keys_iff.mp member
  exact (get?_validRevisions_eq_some.mp isValid).2.2.2 removed

theorem mem_blamed_reviewDiagnostics {facts : Facts} {id : EventId} :
    id ∈ blamed (reviewDiagnostics facts) ↔
      ∃ key node, (reviewCandidates facts).get? key = some node ∧
        ¬ reviewTargetIsValid facts node ∧ node.eventId = id := by
  simp only [reviewDiagnostics, mem_blamed_flatMap, mem_blamed_diagnoseUnless,
    Finset.mem_singleton, eq_comm]

theorem rejected_of_review {id : EventId}
    (isBlamed : id ∈ blamed (reviewDiagnostics (factsOf events))) :
    Rejected hasher events id := by
  obtain ⟨key, node, candidate, invalidTarget, rfl⟩ := mem_blamed_reviewDiagnostics.mp isBlamed
  obtain ⟨isReview, valid⟩ := BTreeMap.get?_filter_eq_some.mp candidate
  obtain ⟨rfl, isEvent⟩ := (reviews_iff valid).mp isReview
  refine ⟨node.event, isEvent, rfl, fun accepted => invalidTarget ?_⟩
  have found := (reviewNodes_iff hasher).mpr ⟨rfl, isEvent, accepted⟩
  exact (BTreeMap.get?_filter_eq_some.mp found).2

theorem mem_blamed_publicationDiagnostics {facts : Facts} {id : EventId} :
    id ∈ blamed (publicationDiagnostics facts) ↔
      (∃ key node, (livePublications facts).get? key = some node ∧ node.eventId = id ∧
        (node.key ∉ (validContexts facts).keys ∨
          (node.key ∈ (validContexts facts).keys ∧ ¬ publicationReferencesAreValid facts node))) ∨
      ∃ contextKey ∈ (validContexts facts).keys, ∃ key node,
        (publicationCandidates facts contextKey).get? key = some node ∧
        ¬ CausalGraph.Grounded (publicationCandidates facts contextKey)
          PublicationNode.parents key ∧ node.eventId = id := by
  simp only [publicationDiagnostics, blamed_union, Finset.mem_union, mem_blamed_flatMap,
    mem_blamed_diagnoseUnless, Finset.mem_singleton, mem_blamed_biUnion, reducedPublications,
    mem_blamed_reduceDag, Classical.not_imp]
  constructor
  · rintro ((⟨key, node, live, missing, rfl⟩ | ⟨key, node, live, ⟨isContext, invalid⟩, rfl⟩) | cyclic)
    · exact .inl ⟨key, node, live, rfl, .inl missing⟩
    · exact .inl ⟨key, node, live, rfl, .inr ⟨isContext, invalid⟩⟩
    · exact .inr cyclic
  · rintro (⟨key, node, live, rfl, missing | ⟨isContext, invalid⟩⟩ | cyclic)
    · exact .inl (.inl ⟨key, node, live, missing, rfl⟩)
    · exact .inl (.inr ⟨key, node, live, ⟨isContext, invalid⟩, rfl⟩)
    · exact .inr cyclic

theorem rejected_of_publication {id : EventId}
    (isBlamed : id ∈ blamed (publicationDiagnostics (factsOf events))) :
    Rejected hasher events id := by
  have isEventOf : ∀ {key node}, (livePublications (factsOf events)).get? key = some node →
      key = node.publication.publicationId ∧ node.event ∈ events := by
    intro key node live
    obtain ⟨isPublication, valid⟩ := BTreeMap.get?_filter_eq_some.mp live
    exact (publications_iff valid).mp isPublication
  rcases mem_blamed_publicationDiagnostics.mp isBlamed with
    ⟨key, node, live, rfl, invalid⟩ | ⟨contextKey, -, key, node, candidate, ungrounded, rfl⟩
  · obtain ⟨rfl, isEvent⟩ := isEventOf live
    refine ⟨node.event, isEvent, rfl, fun accepted => ?_⟩
    obtain ⟨isContext, found⟩ := (validPublications_iff hasher).mpr ⟨rfl, rfl, isEvent, accepted⟩
    rcases invalid with missing | ⟨-, invalid⟩
    · exact missing isContext
    · exact invalid (validPublications_agrees found).2.2.2
  · obtain ⟨live, rfl, -⟩ := BTreeMap.get?_filter_eq_some.mp candidate
    obtain ⟨rfl, isEvent⟩ := isEventOf live
    refine ⟨node.event, isEvent, rfl, fun accepted => ungrounded ?_⟩
    obtain ⟨-, found⟩ := (validPublications_iff hasher).mpr ⟨rfl, rfl, isEvent, accepted⟩
    exact (validPublications_eq_some.mp found).2

theorem mem_blamed_associationDiagnostics {facts : Facts} {id : EventId} :
    id ∈ blamed (associationDiagnostics facts) ↔
      ∃ contextId ∈ facts.associationContextIds, ∃ key node,
        (associationsOf facts contextId).get? key = some node ∧ node.eventId = id ∧
        (¬ associationReferencesAreValid facts node ∨
          (associationReferencesAreValid facts node ∧
            ¬ CausalGraph.Grounded (associationCandidates facts contextId)
              ContextSpaceAssociationNode.parents key)) := by
  simp only [associationDiagnostics, mem_blamed_biUnion, blamed_union, Finset.mem_union,
    mem_blamed_flatMap, mem_blamed_diagnoseUnless, Finset.mem_singleton, reducedAssociations,
    mem_blamed_reduceDag]
  refine exists_congr fun contextId => and_congr_right fun _ => ?_
  constructor
  · rintro (⟨key, node, found, invalid, rfl⟩ | ⟨key, node, candidate, ungrounded, rfl⟩)
    · exact ⟨key, node, found, rfl, .inl invalid⟩
    · obtain ⟨found, references⟩ := BTreeMap.get?_filter_eq_some.mp candidate
      exact ⟨key, node, found, rfl, .inr ⟨references, ungrounded⟩⟩
  · rintro ⟨key, node, found, rfl, invalid | ⟨references, ungrounded⟩⟩
    · exact .inl ⟨key, node, found, invalid, rfl⟩
    · exact .inr ⟨key, node, BTreeMap.get?_filter_eq_some.mpr ⟨found, references⟩, ungrounded, rfl⟩

theorem rejected_of_association {id : EventId}
    (isBlamed : id ∈ blamed (associationDiagnostics (factsOf events))) :
    Rejected hasher events id := by
  obtain ⟨contextId, -, key, node, found, rfl, invalid⟩ :=
    mem_blamed_associationDiagnostics.mp isBlamed
  obtain ⟨isAssociation, rfl, valid⟩ := BTreeMap.get?_filter_eq_some.mp found
  obtain ⟨rfl, isEvent⟩ := (associations_iff valid).mp isAssociation
  refine ⟨node.event, isEvent, rfl, fun accepted => ?_⟩
  have isValid := (reducedAssociations_iff hasher).mpr ⟨rfl, rfl, isEvent, accepted⟩
  rcases invalid with invalid | ⟨-, ungrounded⟩
  · exact invalid (reducedAssociations_agrees isValid).2.2.2
  · exact ungrounded (reducedAssociations_eq_some.mp isValid).2

theorem mem_blamed_confirmationDiagnostics {facts : Facts} {id : EventId} :
    id ∈ blamed (confirmationDiagnostics hasher facts) ↔
      ∃ key node, (confirmationCandidates facts).get? key = some node ∧
        ¬ ConfirmationIsValid hasher facts node.confirmation ∧ node.eventId = id := by
  simp only [confirmationDiagnostics, mem_blamed_flatMap, mem_blamed_diagnoseUnless,
    Finset.mem_singleton, eq_comm]

theorem rejected_of_confirmation {id : EventId}
    (isBlamed : id ∈ blamed (confirmationDiagnostics hasher (factsOf events))) :
    Rejected hasher events id := by
  obtain ⟨key, node, candidate, invalid, rfl⟩ := mem_blamed_confirmationDiagnostics.mp isBlamed
  obtain ⟨-, isEvent, -⟩ := confirmationCandidates_iff.mp candidate
  exact ⟨node.event, isEvent, rfl, fun accepted => invalid accepted.holds.2⟩

theorem mem_blamed_referenceDiagnostics {facts : Facts} {id : EventId} :
    id ∈ blamed (referenceDiagnostics facts) ↔
      ∃ key node, (referenceCandidates facts).get? key = some node ∧
        (∀ projection, resolveReference facts key node ≠ .ok projection) ∧
        node.eventId = id := by
  simp only [referenceDiagnostics, mem_blamed_flatMap]
  refine exists₂_congr fun key node => and_congr_right fun _ => ?_
  cases resolveReference facts key node with
  | error reason => simp [eq_comm]
  | ok projection => simp [blamed]

theorem rejected_of_reference {id : EventId}
    (isBlamed : id ∈ blamed (referenceDiagnostics (factsOf events))) :
    Rejected hasher events id := by
  obtain ⟨key, node, candidate, invalid, rfl⟩ := mem_blamed_referenceDiagnostics.mp isBlamed
  obtain ⟨rfl, isEvent, -⟩ := referenceCandidates_iff.mp candidate
  refine ⟨node.event, isEvent, rfl, fun accepted => ?_⟩
  obtain ⟨projection, found⟩ := BTreeMap.mem_keys_iff.mp accepted.holds
  obtain ⟨other, isOther, resolved⟩ := engineeringReferences_eq_some.mp found
  have sameNode := Option.some.inj (isOther.symm.trans candidate)
  rw [sameNode] at resolved
  exact invalid projection resolved

theorem mem_blamed_conflictDiagnostics {facts : Facts} {id : EventId} :
    id ∈ blamed (conflictDiagnostics facts) ↔
      ∃ key node, (conflictNodes facts).get? key = some node ∧
        ¬ conflictIsValid (projectSpaces facts) node ∧ node.eventId = id := by
  simp only [conflictDiagnostics, mem_blamed_flatMap, mem_blamed_diagnoseUnless,
    Finset.mem_singleton, eq_comm]

theorem rejected_of_conflict {id : EventId}
    (isBlamed : id ∈ blamed (conflictDiagnostics (factsOf events))) :
    Rejected hasher events id := by
  obtain ⟨key, node, candidate, invalid, rfl⟩ := mem_blamed_conflictDiagnostics.mp isBlamed
  obtain ⟨isConflict, valid⟩ := BTreeMap.get?_filter_eq_some.mp candidate
  obtain ⟨rfl, isEvent⟩ := (conflicts_iff valid).mp isConflict
  exact ⟨node.event, isEvent, rfl, fun accepted =>
    invalid (conflict_of_accepted _ isEvent accepted).2⟩

theorem mem_blamed_resolutionDiagnostics {facts : Facts} {id : EventId} :
    id ∈ blamed (resolutionDiagnostics facts) ↔
      (∃ key node, (resolutionNodes facts).get? key = some node ∧ node.eventId = id ∧
        ¬ resolutionConflictIsValid facts node) ∨
      ∃ conflictId conflictNode, (validConflicts facts).get? conflictId = some conflictNode ∧
        ∃ key node, (resolutionsOf facts conflictId conflictNode).get? key = some node ∧
          node.eventId = id ∧
          (¬ resolutionIsValid facts conflictNode node.resolution ∨
            (resolutionIsValid facts conflictNode node.resolution ∧
              ¬ CausalGraph.Grounded (resolutionCandidates facts conflictId conflictNode)
                ResolutionNode.parents key)) := by
  simp only [resolutionDiagnostics, blamed_union, Finset.mem_union, mem_blamed_flatMap,
    mem_blamed_diagnoseUnless, Finset.mem_singleton, reducedResolutions, mem_blamed_reduceDag]
  apply or_congr
  · refine exists₂_congr fun key node => and_congr_right fun _ => ?_
    rw [and_comm, eq_comm]
  · refine exists₂_congr fun conflictId conflictNode => and_congr_right fun _ => ?_
    constructor
    · rintro (⟨key, node, found, invalid, rfl⟩ | ⟨key, node, candidate, ungrounded, rfl⟩)
      · exact ⟨key, node, found, rfl, .inl invalid⟩
      · obtain ⟨found, references⟩ := BTreeMap.get?_filter_eq_some.mp candidate
        exact ⟨key, node, found, rfl, .inr ⟨references, ungrounded⟩⟩
    · rintro ⟨key, node, found, rfl, invalid | ⟨references, ungrounded⟩⟩
      · exact .inl ⟨key, node, found, invalid, rfl⟩
      · exact .inr
          ⟨key, node, BTreeMap.get?_filter_eq_some.mpr ⟨found, references⟩, ungrounded, rfl⟩

theorem rejected_of_resolution {id : EventId}
    (isBlamed : id ∈ blamed (resolutionDiagnostics (factsOf events))) :
    Rejected hasher events id := by
  rcases mem_blamed_resolutionDiagnostics.mp isBlamed with
    ⟨key, node, isNode, rfl, invalid⟩ |
      ⟨conflictId, conflictNode, isConflict, key, node, found, rfl, invalid⟩
  · obtain ⟨isResolution, valid⟩ := BTreeMap.get?_filter_eq_some.mp isNode
    obtain ⟨rfl, isEvent⟩ := (resolutions_iff valid).mp isResolution
    refine ⟨node.event, isEvent, rfl, fun accepted => invalid ?_⟩
    obtain ⟨conflictNode, isConflict, sameSpace, -⟩ := resolution_of_accepted _ isEvent accepted
    exact ⟨conflictNode, isConflict, sameSpace.symm⟩
  · obtain ⟨isNode, rfl, sameSpace⟩ := BTreeMap.get?_filter_eq_some.mp found
    obtain ⟨isResolution, valid⟩ := BTreeMap.get?_filter_eq_some.mp isNode
    obtain ⟨rfl, isEvent⟩ := (resolutions_iff valid).mp isResolution
    refine ⟨node.event, isEvent, rfl, fun accepted => ?_⟩
    have isValid := (reducedResolutions_iff hasher isConflict).mpr ⟨rfl, rfl, isEvent, accepted⟩
    rcases invalid with invalid | ⟨-, ungrounded⟩
    · exact invalid (reducedResolutions_agrees isValid).2.2.2.2
    · exact ungrounded (reducedResolutions_eq_some.mp isValid).2

/-! ### Rejected events are blamed -/

theorem mem_blamed_reduceDiagnostics {id : EventId} :
    id ∈ blamed (reduceDiagnostics events hasher) ↔
      id ∈ blamed (definitionDiagnostics (collectDefinitions events)) ∨
      id ∈ blamed (ambiguousOwnerDiagnostics events (factsOf events).contextOwners) ∨
      id ∈ blamed (missingSpaceDiagnostics events (validSpaces (factsOf events))) ∨
      id ∈ blamed (intentDiagnostics (factsOf events)) ∨
      id ∈ blamed (contextDiagnostics (factsOf events)) ∨
      id ∈ blamed (relationDiagnostics (factsOf events)) ∨
      id ∈ blamed (reviewDiagnostics (factsOf events)) ∨
      id ∈ blamed (publicationDiagnostics (factsOf events)) ∨
      id ∈ blamed (associationDiagnostics (factsOf events)) ∨
      id ∈ blamed (confirmationDiagnostics hasher (factsOf events)) ∨
      id ∈ blamed (referenceDiagnostics (factsOf events)) ∨
      id ∈ blamed (conflictDiagnostics (factsOf events)) ∨
      id ∈ blamed (resolutionDiagnostics (factsOf events)) := by
  simp only [reduceDiagnostics, blamed_union, Finset.mem_union, or_assoc]
  rfl

theorem rejected_of_blamed {id : EventId}
    (isBlamed : id ∈ blamed (reduceDiagnostics events hasher)) : Rejected hasher events id := by
  rcases mem_blamed_reduceDiagnostics.mp isBlamed with inPhase | inPhase | inPhase | inPhase |
    inPhase | inPhase | inPhase | inPhase | inPhase | inPhase | inPhase | inPhase | inPhase
  · exact rejected_of_repeats (mem_blamed_definitionDiagnostics.mp inPhase)
  · exact rejected_of_ambiguousOwner inPhase
  · exact rejected_of_missingSpace inPhase
  · exact rejected_of_intent inPhase
  · exact rejected_of_context inPhase
  · exact rejected_of_relation inPhase
  · exact rejected_of_review inPhase
  · exact rejected_of_publication inPhase
  · exact rejected_of_association inPhase
  · exact rejected_of_confirmation inPhase
  · exact rejected_of_reference inPhase
  · exact rejected_of_conflict inPhase
  · exact rejected_of_resolution inPhase

/-- An event whose ID no diagnostic names. -/
def Unblamed (hasher : ContentHasher) (events : List ReducerEvent) (event : ReducerEvent) :
    Prop :=
  event ∈ events ∧ event.eventId ∉ blamed (reduceDiagnostics events hasher)

theorem Unblamed.phases {event : ReducerEvent} (unblamed : Unblamed hasher events event) :
    event.eventId ∉ blamed (definitionDiagnostics (collectDefinitions events)) ∧
      event.eventId ∉ blamed (ambiguousOwnerDiagnostics events (factsOf events).contextOwners) ∧
      event.eventId ∉ blamed (missingSpaceDiagnostics events (validSpaces (factsOf events))) ∧
      event.eventId ∉ blamed (intentDiagnostics (factsOf events)) ∧
      event.eventId ∉ blamed (contextDiagnostics (factsOf events)) ∧
      event.eventId ∉ blamed (relationDiagnostics (factsOf events)) ∧
      event.eventId ∉ blamed (reviewDiagnostics (factsOf events)) ∧
      event.eventId ∉ blamed (publicationDiagnostics (factsOf events)) ∧
      event.eventId ∉ blamed (associationDiagnostics (factsOf events)) ∧
      event.eventId ∉ blamed (confirmationDiagnostics hasher (factsOf events)) ∧
      event.eventId ∉ blamed (referenceDiagnostics (factsOf events)) ∧
      event.eventId ∉ blamed (conflictDiagnostics (factsOf events)) ∧
      event.eventId ∉ blamed (resolutionDiagnostics (factsOf events)) := by
  have notBlamed := unblamed.2
  rw [mem_blamed_reduceDiagnostics] at notBlamed
  simpa only [not_or] using notBlamed

theorem Unblamed.unique {event : ReducerEvent} (unblamed : Unblamed hasher events event) :
    event.UniqueIn events := by
  intro identity member
  have positive := definitionCount_pos.mpr ⟨event, unblamed.1, member⟩
  by_contra several
  apply unblamed.phases.1
  apply mem_blamed_definitionDiagnostics.mpr
  exact ⟨event, unblamed.1, rfl, identity, member, rfl, by omega⟩

theorem Unblamed.valid {event : ReducerEvent} (unblamed : Unblamed hasher events event) :
    event.eventId ∉ (factsOf events).invalidEventIds := by
  intro invalid
  apply unblamed.phases.1
  exact mem_blamed_definitionDiagnostics_cases.mpr (.inl invalid)

theorem Unblamed.spaces {event : ReducerEvent} (unblamed : Unblamed hasher events event)
    {spaceId : SpaceId} (referenced : spaceId ∈ event.referencedSpaces) :
    spaceId ∈ validSpaces (factsOf events) := by
  by_contra missing
  apply unblamed.phases.2.2.1
  exact mem_blamed_missingSpaceDiagnostics.mpr
    ⟨event, unblamed.1, rfl, spaceId, referenced, missing⟩

/-- An unblamed event's Contexts have no owner besides the event's own Space. -/
theorem Unblamed.owned {event : ReducerEvent} (unblamed : Unblamed hasher events event)
    {contextId : ContextId} {spaceId : SpaceId} (mentioned : contextId ∈ event.mentionedContexts)
    (referenced : spaceId ∈ event.referencedSpaces) :
    (spaceId, contextId) ∈ ownedContexts (factsOf events) := by
  refine mem_ownedContexts.mpr ⟨?_, unblamed.spaces referenced⟩
  let owners := (BTreeMap.listed (events.flatMap ownerEntries) contextId).toFinset
  have member : ∀ owner, owner ∈ owners ↔ ∃ event ∈ events,
      contextId ∈ event.mentionedContexts ∧ owner ∈ event.referencedSpaces := by
    intro owner
    simp [owners, BTreeMap.listed, mem_ownerEntries]
  have isOwner : spaceId ∈ owners :=
    (member spaceId).mpr ⟨event, unblamed.1, mentioned, referenced⟩
  have found := contextOwners_iff.mpr ⟨⟨spaceId, isOwner⟩, member⟩
  have single : owners.card ≤ 1 := by
    by_contra several
    apply unblamed.phases.2.1
    apply mem_blamed_flatMap.mpr
    refine ⟨contextId, owners, found, mem_blamed_diagnoseUnless.mpr ⟨several, ?_⟩⟩
    simp only [List.mem_toFinset, List.mem_map, List.mem_filter, decide_eq_true_eq]
    exact ⟨event, ⟨unblamed.1, mentioned⟩, rfl⟩
  have ownersEq : owners = {spaceId} :=
    (Finset.eq_singleton_iff_unique_mem).mpr
      ⟨isOwner, fun other isOther => Finset.card_le_one.mp single other isOther spaceId isOwner⟩
  exact ownersEq ▸ found

theorem Unblamed.intent (node : IntentNode) {event : ReducerEvent}
    (unblamed : Unblamed hasher events event)
    (isNode : event = node.creation ∨ event = node.addition)
    (isSpace : node.spaceId ∈ validSpaces (factsOf events)) :
    node.revision.revisionId ∈ (reducedIntents (factsOf events) node.spaceId).nodes.keys := by
  have sameId : event.eventId = node.eventId := by rcases isNode with rfl | rfl <;> rfl
  have valid := unblamed.valid
  rw [sameId] at valid
  have isEvent : node.creation ∈ events ∨ node.addition ∈ events := by
    rcases isNode with rfl | rfl
    · exact .inl unblamed.1
    · exact .inr unblamed.1
  have isIntent := (intents_iff valid).mpr ⟨rfl, isEvent⟩
  have candidate : (intentCandidates (factsOf events) node.spaceId).get?
      node.revision.revisionId = some node :=
    BTreeMap.get?_filter_eq_some.mpr ⟨isIntent, rfl, valid⟩
  refine BTreeMap.mem_keys_of_get? (get?_reducedIntents.mpr ⟨candidate, ?_⟩)
  by_contra ungrounded
  apply unblamed.phases.2.2.2.1
  exact mem_blamed_intentDiagnostics.mpr
    ⟨node.spaceId, isSpace, _, node, candidate, ungrounded, sameId.symm⟩

theorem Unblamed.revision (node : ContextNode) (unblamed : Unblamed hasher events node.event) :
    node.revision.revisionId ∈
      (validRevisions (factsOf events) (node.spaceId, node.contextId)).keys := by
  have owned := unblamed.owned (List.mem_singleton_self node.contextId)
    (Finset.mem_singleton_self node.spaceId)
  have isContext := (contexts_iff unblamed.valid).mpr ⟨rfl, unblamed.1⟩
  have candidate : (contextCandidates (factsOf events) (node.spaceId, node.contextId)).get?
      node.revision.revisionId = some node :=
    BTreeMap.get?_filter_eq_some.mpr ⟨isContext, rfl, rfl, unblamed.valid⟩
  have grounded : CausalGraph.Grounded
      (contextCandidates (factsOf events) (node.spaceId, node.contextId)) ContextNode.parents
      node.revision.revisionId := by
    by_contra ungrounded
    apply unblamed.phases.2.2.2.2.1
    exact mem_blamed_contextDiagnostics.mpr
      ⟨_, owned, _, node, candidate, ungrounded, rfl⟩
  refine BTreeMap.mem_keys_of_get?
    (get?_validRevisions_eq_some.mpr ⟨owned, candidate, grounded, fun removed => ?_⟩)
  apply unblamed.phases.2.2.2.2.2.1
  exact mem_blamed_relationClosure.mpr
    ⟨_, _, node, revision?_reducedContexts.mpr ⟨owned, candidate, grounded⟩, removed, rfl⟩

theorem Unblamed.review (node : ReviewNode) (unblamed : Unblamed hasher events node.event) :
    node.review.reviewId ∈ (reviewNodes (factsOf events)).keys := by
  have isReview := (reviews_iff unblamed.valid).mpr ⟨rfl, unblamed.1⟩
  have candidate : (reviewCandidates (factsOf events)).get? node.review.reviewId = some node :=
    BTreeMap.get?_filter_eq_some.mpr ⟨isReview, unblamed.valid⟩
  refine BTreeMap.mem_keys_of_get? (BTreeMap.get?_filter_eq_some.mpr ⟨candidate, ?_⟩)
  by_contra invalidTarget
  apply unblamed.phases.2.2.2.2.2.2.1
  exact mem_blamed_reviewDiagnostics.mpr ⟨_, node, candidate, invalidTarget, rfl⟩

theorem Unblamed.publication (node : PublicationNode)
    (unblamed : Unblamed hasher events node.event) :
    node.key ∈ (validContexts (factsOf events)).keys ∧
      node.publication.publicationId ∈ (validPublications (factsOf events) node.key).keys := by
  have notBlamed := mt mem_blamed_publicationDiagnostics.mpr unblamed.phases.2.2.2.2.2.2.2.1
  rw [not_or] at notBlamed
  have isPublication := (publications_iff unblamed.valid).mpr ⟨rfl, unblamed.1⟩
  have live : (livePublications (factsOf events)).get? node.publication.publicationId =
      some node := BTreeMap.get?_filter_eq_some.mpr ⟨isPublication, unblamed.valid⟩
  have isContext : node.key ∈ (validContexts (factsOf events)).keys := by
    by_contra missing
    exact notBlamed.1 ⟨_, node, live, rfl, .inl missing⟩
  have references : publicationReferencesAreValid (factsOf events) node := by
    by_contra invalid
    exact notBlamed.1 ⟨_, node, live, rfl, .inr ⟨isContext, invalid⟩⟩
  have candidate : (publicationCandidates (factsOf events) node.key).get?
      node.publication.publicationId = some node :=
    BTreeMap.get?_filter_eq_some.mpr ⟨live, rfl, references⟩
  refine ⟨isContext, BTreeMap.mem_keys_of_get? (validPublications_eq_some.mpr ⟨candidate, ?_⟩)⟩
  by_contra ungrounded
  exact notBlamed.2 ⟨node.key, isContext, _, node, candidate, ungrounded, rfl⟩

theorem Unblamed.association (node : ContextSpaceAssociationNode)
    (unblamed : Unblamed hasher events node.event) :
    node.association.associationId ∈
      (reducedAssociations (factsOf events) node.contextId).nodes.keys := by
  have notBlamed := mt mem_blamed_associationDiagnostics.mpr unblamed.phases.2.2.2.2.2.2.2.2.1
  have isAssociation := (associations_iff unblamed.valid).mpr ⟨rfl, unblamed.1⟩
  have ofContext : (associationsOf (factsOf events) node.contextId).get?
      node.association.associationId = some node :=
    BTreeMap.get?_filter_eq_some.mpr ⟨isAssociation, rfl, unblamed.valid⟩
  have isAssociated := mem_associationContextIds.mpr ⟨node, unblamed.1, rfl⟩
  have references : associationReferencesAreValid (factsOf events) node := by
    by_contra invalid
    exact notBlamed ⟨_, isAssociated, _, node, ofContext, rfl, .inl invalid⟩
  have candidate : (associationCandidates (factsOf events) node.contextId).get?
      node.association.associationId = some node :=
    BTreeMap.get?_filter_eq_some.mpr ⟨ofContext, references⟩
  refine BTreeMap.mem_keys_of_get? (reducedAssociations_eq_some.mpr ⟨candidate, ?_⟩)
  by_contra ungrounded
  exact notBlamed ⟨_, isAssociated, _, node, ofContext, rfl, .inr ⟨references, ungrounded⟩⟩

theorem Unblamed.confirmation (node : CandidateConfirmationNode)
    (unblamed : Unblamed hasher events node.event) :
    ConfirmationIsValid hasher (factsOf events) node.confirmation := by
  by_contra invalid
  apply unblamed.phases.2.2.2.2.2.2.2.2.2.1
  exact mem_blamed_confirmationDiagnostics.mpr
    ⟨_, node, confirmationCandidates_iff.mpr ⟨rfl, unblamed.1, unblamed.valid⟩, invalid, rfl⟩

theorem Unblamed.reference (node : EngineeringReferenceNode)
    (unblamed : Unblamed hasher events node.event) :
    node.reference.referenceId ∈ (engineeringReferences (factsOf events)).keys := by
  have once := unblamed.unique (.reference node.reference.referenceId)
    (List.mem_cons_of_mem _ (List.mem_singleton_self _))
  have candidate := referenceCandidates_iff.mpr ⟨rfl, unblamed.1, unblamed.valid, once⟩
  cases resolved : resolveReference (factsOf events) node.reference.referenceId node with
  | ok projection =>
      exact BTreeMap.mem_keys_of_get?
        (engineeringReferences_eq_some.mpr ⟨node, candidate, resolved⟩)
  | error reason =>
      exfalso
      apply unblamed.phases.2.2.2.2.2.2.2.2.2.2.1
      refine mem_blamed_referenceDiagnostics.mpr ⟨_, node, candidate, ?_, rfl⟩
      intro projection isOk
      rw [resolved] at isOk
      cases isOk

theorem Unblamed.conflict (node : ConflictNode) (unblamed : Unblamed hasher events node.event) :
    node.conflict.conflictId ∈ (validConflicts (factsOf events)).keys := by
  have isConflict := (conflicts_iff unblamed.valid).mpr ⟨rfl, unblamed.1⟩
  have candidate : (conflictNodes (factsOf events)).get? node.conflict.conflictId = some node :=
    BTreeMap.get?_filter_eq_some.mpr ⟨isConflict, unblamed.valid⟩
  refine BTreeMap.mem_keys_of_get? (BTreeMap.get?_filter_eq_some.mpr ⟨candidate, ?_⟩)
  by_contra invalid
  apply unblamed.phases.2.2.2.2.2.2.2.2.2.2.2.1
  exact mem_blamed_conflictDiagnostics.mpr ⟨_, node, candidate, invalid, rfl⟩

theorem Unblamed.resolution (node : ResolutionNode)
    (unblamed : Unblamed hasher events node.event) :
    ∃ conflictNode, (validConflicts (factsOf events)).get? node.conflictId = some conflictNode ∧
      node.resolution.resolutionId ∈
        (reducedResolutions (factsOf events) node.conflictId conflictNode).nodes.keys := by
  have notBlamed := mt mem_blamed_resolutionDiagnostics.mpr
    unblamed.phases.2.2.2.2.2.2.2.2.2.2.2.2
  rw [not_or] at notBlamed
  have isResolution := (resolutions_iff unblamed.valid).mpr ⟨rfl, unblamed.1⟩
  have isNode : (resolutionNodes (factsOf events)).get? node.resolution.resolutionId =
      some node := BTreeMap.get?_filter_eq_some.mpr ⟨isResolution, unblamed.valid⟩
  have hasConflict : resolutionConflictIsValid (factsOf events) node := by
    by_contra invalid
    exact notBlamed.1 ⟨_, node, isNode, rfl, invalid⟩
  obtain ⟨conflictNode, isConflict, sameSpace⟩ := hasConflict
  have ofConflict : (resolutionsOf (factsOf events) node.conflictId conflictNode).get?
      node.resolution.resolutionId = some node :=
    BTreeMap.get?_filter_eq_some.mpr ⟨isNode, rfl, sameSpace.symm⟩
  have references : resolutionIsValid (factsOf events) conflictNode node.resolution := by
    by_contra invalid
    exact notBlamed.2 ⟨_, conflictNode, isConflict, _, node, ofConflict, rfl, .inl invalid⟩
  have candidate : (resolutionCandidates (factsOf events) node.conflictId conflictNode).get?
      node.resolution.resolutionId = some node :=
    BTreeMap.get?_filter_eq_some.mpr ⟨ofConflict, references⟩
  refine ⟨conflictNode, isConflict,
    BTreeMap.mem_keys_of_get? (reducedResolutions_eq_some.mpr ⟨candidate, ?_⟩)⟩
  by_contra ungrounded
  exact notBlamed.2
    ⟨_, conflictNode, isConflict, _, node, ofConflict, rfl, .inr ⟨references, ungrounded⟩⟩

/-- What no diagnostic names is accepted. -/
theorem Unblamed.accepted {event : ReducerEvent} (unblamed : Unblamed hasher events event) :
    event.Accepted hasher (factsOf events) := by
  refine ⟨unblamed.valid, ?_⟩
  obtain ⟨eventId, payload⟩ := event
  cases payload with
  | contextCandidateCreated candidate => trivial
  | candidateConfirmed confirmation =>
      refine ⟨fun spaceId created => unblamed.spaces ?_,
        Unblamed.confirmation ⟨eventId, confirmation⟩ unblamed⟩
      exact Finset.mem_union_right _ (Option.mem_toFinset.mpr created)
  | spaceCreated spaceId revision =>
      have once := unblamed.unique (.spaceCreation spaceId)
        (List.mem_cons_of_mem _ List.mem_cons_self)
      have isSpace : spaceId ∈ validSpaces (factsOf events) := mem_validSpaces.mpr
        ⟨⟨eventId, spaceId, revision⟩, spaceCreations_iff.mpr ⟨rfl, unblamed.1, once⟩,
          unblamed.valid⟩
      exact ⟨isSpace,
        Unblamed.intent ⟨eventId, spaceId, revision⟩ unblamed (.inl rfl) isSpace⟩
  | spaceIntentRevisionAdded spaceId revision =>
      have isSpace := unblamed.spaces (Finset.mem_singleton_self spaceId)
      exact ⟨isSpace,
        Unblamed.intent ⟨eventId, spaceId, revision⟩ unblamed (.inr rfl) isSpace⟩
  | contextRevisionAdded spaceId contextId revision =>
      exact Unblamed.revision ⟨eventId, spaceId, contextId, revision⟩ unblamed
  | contextReviewed spaceId contextId review =>
      exact Unblamed.review ⟨eventId, spaceId, contextId, review⟩ unblamed
  | contextPublicationChanged spaceId contextId publication =>
      exact Unblamed.publication ⟨eventId, spaceId, contextId, publication⟩ unblamed
  | contextSpaceAssociationChanged association =>
      exact Unblamed.association ⟨eventId, association⟩ unblamed
  | semanticConflictOpened spaceId conflict =>
      exact Unblamed.conflict ⟨eventId, spaceId, conflict⟩ unblamed
  | semanticConflictResolutionAdded spaceId conflictId resolution =>
      exact Unblamed.resolution ⟨eventId, spaceId, conflictId, resolution⟩ unblamed
  | engineeringReferenceRecorded contextId revisionId reference =>
      exact Unblamed.reference ⟨eventId, contextId, revisionId, reference⟩ unblamed

/-- The quarantined IDs are those of the events that are not accepted. -/
theorem mem_quarantinedEventIds {id : EventId} :
    id ∈ (reduce events hasher).quarantinedEventIds ↔ Rejected hasher events id := by
  constructor
  · exact rejected_of_blamed
  · rintro ⟨event, isEvent, rfl, rejected⟩
    by_contra notBlamed
    exact rejected (Unblamed.accepted ⟨isEvent, notBlamed⟩)

/-- An event of the input is quarantined exactly when it is not accepted. -/
theorem quarantined_iff {event : ReducerEvent} (isEvent : event ∈ events) :
    event.eventId ∈ (reduce events hasher).quarantinedEventIds ↔
      ¬ event.Accepted hasher (factsOf events) := by
  rw [mem_quarantinedEventIds]
  constructor
  · rintro ⟨other, isOther, sameId, rejected⟩ accepted
    apply rejected
    have sameEvent := event_eq_of_valid isEvent isOther sameId.symm accepted.valid
    exact sameEvent ▸ accepted
  · exact fun rejected => ⟨event, isEvent, rfl, rejected⟩

end SharedContext
