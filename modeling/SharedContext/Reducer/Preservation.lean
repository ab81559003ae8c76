import SharedContext.Reducer.Partition

/-!
# Preservation of accepted facts

When a second event list keeps the accepted events of a first one, each still
the only definition of its identities and the only owner of its Contexts,
every accepted event stays accepted.  The argument follows the phases of the
reducer: each valid table of the first list is contained in that of the second.
-/

namespace SharedContext

/-- The second list keeps what the first one accepts. -/
structure Keeps (hasher : ContentHasher) (events others : List ReducerEvent) : Prop where
  accepted : ∀ event ∈ events, event.Accepted hasher (factsOf events) →
    event ∈ others ∧ event.UniqueIn others
  creations : ∀ node : IntentNode, node.creation ∈ events →
    node.eventId ∉ (factsOf events).invalidEventIds →
    node.spaceId ∈ validSpaces (factsOf events) →
      node.creation ∈ others ∧ node.creation.UniqueIn others
  owners : ∀ event ∈ events, event.Accepted hasher (factsOf events) →
    ∀ contextId ∈ event.mentionedContexts, ∀ spaceId ∈ event.referencedSpaces,
      (factsOf others).contextOwners.get? contextId = some {spaceId}

theorem valid_of_unique {events : List ReducerEvent} {event : ReducerEvent}
    (isEvent : event ∈ events) (unique : event.UniqueIn events) :
    event.eventId ∉ (factsOf events).invalidEventIds := by
  intro invalid
  obtain ⟨other, isOther, sameId, identity, member, -, several⟩ := mem_invalidEventIds.mp invalid
  have isEntry : (event.eventId, event) ∈ eventTable.entries event := List.mem_singleton_self _
  have otherEntry : (event.eventId, other) ∈ eventTable.entries other := by
    rw [← sameId]
    exact List.mem_singleton_self _
  have once := unique (.event event.eventId) List.mem_cons_self
  have found := eventTable.found_of_count isEvent isEntry once
  have sameEvent := DefinitionTable.eq_of_found found isOther otherEntry
  have single := unique identity (sameEvent ▸ member)
  omega

theorem owner?_of_valid {facts : Facts} {key : ContextKey}
    (isContext : key ∈ (validContexts facts).keys) :
    owner? facts key.2 = some key.1 := by
  have owned := (mem_ownedContexts.mp (mem_ownedContexts_of_valid isContext)).1
  rw [owner?, owned, Option.bind_some, sole?_eq_some]

section Phases

variable {hasher : ContentHasher} {events others : List ReducerEvent}
  (keeps : Keeps hasher events others)
include keeps

theorem Keeps.valid {event : ReducerEvent} (isEvent : event ∈ events)
    (accepted : event.Accepted hasher (factsOf events)) :
    event ∈ others ∧ event.eventId ∉ (factsOf others).invalidEventIds := by
  obtain ⟨isOther, unique⟩ := keeps.accepted event isEvent accepted
  exact ⟨isOther, valid_of_unique isOther unique⟩

theorem Keeps.spaceCreation {spaceId : SpaceId} {node : IntentNode}
    (isSpace : spaceId ∈ validSpaces (factsOf events))
    (found : (factsOf events).spaceCreations.get? spaceId = some node) :
    (factsOf others).spaceCreations.get? spaceId = some node ∧
      node.eventId ∉ (factsOf others).invalidEventIds := by
  obtain ⟨creator, isCreator, valid⟩ := mem_validSpaces.mp isSpace
  obtain rfl := Option.some.inj (isCreator.symm.trans found)
  obtain ⟨rfl, isEvent, -⟩ := spaceCreations_iff.mp found
  obtain ⟨isOther, unique⟩ := keeps.creations creator isEvent valid isSpace
  have once := unique (.spaceCreation creator.spaceId)
    (List.mem_cons_of_mem _ List.mem_cons_self)
  exact ⟨spaceCreations_iff.mpr ⟨rfl, isOther, once⟩, valid_of_unique isOther unique⟩

theorem Keeps.spaces {spaceId : SpaceId} (isSpace : spaceId ∈ validSpaces (factsOf events)) :
    spaceId ∈ validSpaces (factsOf others) := by
  obtain ⟨node, found, -⟩ := mem_validSpaces.mp isSpace
  obtain ⟨isCreation, valid⟩ := keeps.spaceCreation isSpace found
  exact mem_validSpaces.mpr ⟨node, isCreation, valid⟩

theorem Keeps.intents {spaceId : SpaceId} {key : RevisionId} {node : IntentNode}
    (isSpace : spaceId ∈ validSpaces (factsOf events))
    (found : (reducedIntents (factsOf events) spaceId).nodes.get? key = some node) :
    (reducedIntents (factsOf others) spaceId).nodes.get? key = some node := by
  have candidate : ∀ key node,
      (reducedIntents (factsOf events) spaceId).nodes.get? key = some node →
        (intentCandidates (factsOf others) spaceId).get? key = some node := by
    intro key node isNode
    obtain ⟨rfl, sameSpace, isAccepted⟩ := (reducedIntents_iff hasher isSpace).mp isNode
    have isOther : (node.creation ∈ others ∨ node.addition ∈ others) ∧
        node.eventId ∉ (factsOf others).invalidEventIds := by
      rcases isAccepted with ⟨isEvent, accepted⟩ | ⟨isEvent, accepted⟩
      · obtain ⟨kept, valid⟩ := keeps.valid isEvent accepted
        exact ⟨.inl kept, valid⟩
      · obtain ⟨kept, valid⟩ := keeps.valid isEvent accepted
        exact ⟨.inr kept, valid⟩
    exact BTreeMap.get?_filter_eq_some.mpr
      ⟨(intents_iff isOther.2).mpr ⟨rfl, isOther.1⟩, sameSpace, isOther.2⟩
  refine get?_reducedIntents.mpr ⟨candidate key node found, ?_⟩
  refine CausalGraph.Grounded.mono ?_ (get?_reducedIntents.mp found).2
  intro other otherNode grounded isCandidate
  exact candidate other otherNode (get?_reducedIntents.mpr ⟨isCandidate, grounded⟩)

theorem Keeps.contexts {key : ContextKey} {revisionId : RevisionId} {node : ContextNode}
    (found : (validRevisions (factsOf events) key).get? revisionId = some node) :
    (factsOf others).contexts.get? revisionId = some node ∧
      (contextCandidates (factsOf others) key).get? revisionId = some node := by
  obtain ⟨rfl, rfl, isEvent, accepted⟩ := (validRevisions_iff hasher).mp found
  obtain ⟨isOther, valid⟩ := keeps.valid isEvent accepted
  have isContext := (contexts_iff valid).mpr ⟨rfl, isOther⟩
  exact ⟨isContext, BTreeMap.get?_filter_eq_some.mpr ⟨isContext, rfl, rfl, valid⟩⟩

theorem Keeps.owned {key : ContextKey} (isContext : key ∈ (validContexts (factsOf events)).keys) :
    key ∈ ownedContexts (factsOf others) := by
  obtain ⟨revisionId, node, found⟩ := mem_keys_validContexts.mp isContext
  obtain ⟨-, rfl, isEvent, accepted⟩ := (validRevisions_iff hasher).mp found
  have owner := keeps.owners node.event isEvent accepted node.contextId
    (List.mem_singleton_self _) node.spaceId (Finset.mem_singleton_self _)
  exact mem_ownedContexts.mpr ⟨owner, keeps.spaces (mem_validSpaces_of_valid isContext)⟩

/-- The valid revisions of the first list are closed under parents and
relations, so they survive the relation closure of the second. -/
theorem Keeps.revisions {key : ContextKey} {revisionId : RevisionId} {node : ContextNode}
    (found : (validRevisions (factsOf events) key).get? revisionId = some node) :
    (validRevisions (factsOf others) key).get? revisionId = some node := by
  let keep : ContextKey → RevisionId → Prop := fun key revisionId =>
    ∃ node, (validRevisions (factsOf events) key).get? revisionId = some node
  have sound : ∀ key revisionId, keep key revisionId → ∃ node,
      key ∈ ownedContexts (factsOf others) ∧
        (contextCandidates (factsOf others) key).get? revisionId = some node ∧
        CausalGraph.Grounded (contextCandidates (factsOf others) key) ContextNode.parents
          revisionId ∧
        RelationsHold (fun target => ∃ spaceId other, keep (spaceId, target) other) key.2 node ∧
        ∀ parent ∈ node.parents, keep key parent := by
    rintro key revisionId ⟨node, isNode⟩
    have isContext := mem_keys_validContexts.mpr ⟨revisionId, node, isNode⟩
    refine ⟨node, keeps.owned isContext, (keeps.contexts isNode).2, ?_, ?_, ?_⟩
    · refine CausalGraph.Grounded.restrict (keep key) ?_
        (get?_validRevisions_eq_some.mp isNode).2.2.1 ⟨node, isNode⟩
      rintro other otherNode ⟨keptNode, isKept⟩ isCandidate
      have candidate := (get?_validRevisions_eq_some.mp isKept).2.1
      obtain rfl := Option.some.inj (candidate.symm.trans isCandidate)
      exact ⟨(keeps.contexts isKept).2, fun parent member => parents_valid_of_valid isKept member⟩
    · intro relation member
      obtain ⟨wellFormed, notSelf, spaceId, alive⟩ := relationsHold_of_valid isNode relation member
      exact ⟨wellFormed, notSelf, spaceId, mem_keys_validContexts.mp alive⟩
    · exact fun parent member => parents_valid_of_valid isNode member
  obtain ⟨other, isOther⟩ := get?_validRevisions_of_sound keep sound ⟨node, found⟩
  have sameNode := (contextCandidates_agrees isOther).1.symm.trans (keeps.contexts found).1
  rw [isOther, Option.some.inj sameNode]

theorem Keeps.revisionKeys {key : ContextKey} {revisionId : RevisionId}
    (member : revisionId ∈ (validRevisions (factsOf events) key).keys) :
    revisionId ∈ (validRevisions (factsOf others) key).keys := by
  obtain ⟨node, found⟩ := BTreeMap.mem_keys_iff.mp member
  exact BTreeMap.mem_keys_of_get? (keeps.revisions found)

theorem Keeps.validContexts {key : ContextKey}
    (isContext : key ∈ (validContexts (factsOf events)).keys) :
    key ∈ (SharedContext.validContexts (factsOf others)).keys := by
  obtain ⟨revisionId, node, found⟩ := mem_keys_validContexts.mp isContext
  exact mem_keys_validContexts.mpr ⟨revisionId, node, keeps.revisions found⟩

theorem Keeps.reviews {key : ReviewId} {node : ReviewNode}
    (found : (reviewNodes (factsOf events)).get? key = some node) :
    (reviewNodes (factsOf others)).get? key = some node := by
  obtain ⟨-, target⟩ := BTreeMap.get?_filter_eq_some.mp found
  obtain ⟨rfl, isEvent, accepted⟩ := (reviewNodes_iff hasher).mp found
  obtain ⟨isOther, valid⟩ := keeps.valid isEvent accepted
  have isReview := (reviews_iff valid).mpr ⟨rfl, isOther⟩
  have candidate : (reviewCandidates (factsOf others)).get? node.review.reviewId = some node :=
    BTreeMap.get?_filter_eq_some.mpr ⟨isReview, valid⟩
  exact BTreeMap.get?_filter_eq_some.mpr ⟨candidate, keeps.revisionKeys target⟩

theorem Keeps.publicationReferences {node : PublicationNode}
    (references : publicationReferencesAreValid (factsOf events) node) :
    publicationReferencesAreValid (factsOf others) node := by
  obtain ⟨target, reviews⟩ := references
  refine ⟨keeps.revisionKeys target, fun eventId member => ?_⟩
  obtain ⟨review, found, sameKey⟩ := reviews eventId member
  obtain ⟨sameId, isReview⟩ := reviewByEvent_iff.mp found
  exact ⟨review, reviewByEvent_iff.mpr ⟨sameId, keeps.reviews isReview⟩, sameKey⟩

theorem Keeps.publications {key : ContextKey} {publicationId : PublicationId}
    {node : PublicationNode} (isContext : key ∈ (SharedContext.validContexts (factsOf events)).keys)
    (found : (validPublications (factsOf events) key).get? publicationId = some node) :
    (validPublications (factsOf others) key).get? publicationId = some node := by
  have candidate : ∀ publicationId node,
      (validPublications (factsOf events) key).get? publicationId = some node →
        (publicationCandidates (factsOf others) key).get? publicationId = some node := by
    intro publicationId node isNode
    obtain ⟨-, -, -, references⟩ := validPublications_agrees isNode
    obtain ⟨rfl, sameKey, isEvent, accepted⟩ :=
      (validPublications_iff hasher).mp ⟨isContext, isNode⟩
    obtain ⟨isOther, valid⟩ := keeps.valid isEvent accepted
    have isPublication := (publications_iff valid).mpr ⟨rfl, isOther⟩
    have live : (livePublications (factsOf others)).get? node.publication.publicationId =
        some node := BTreeMap.get?_filter_eq_some.mpr ⟨isPublication, valid⟩
    exact BTreeMap.get?_filter_eq_some.mpr
      ⟨live, sameKey, keeps.publicationReferences references⟩
  refine validPublications_eq_some.mpr ⟨candidate publicationId node found, ?_⟩
  refine CausalGraph.Grounded.mono ?_ (validPublications_eq_some.mp found).2
  intro other otherNode grounded isCandidate
  exact candidate other otherNode (validPublications_eq_some.mpr ⟨isCandidate, grounded⟩)

theorem Keeps.validCandidates {candidateId : CandidateId} {node : CandidateNode}
    (found : (validCandidateNodes (factsOf events)).get? candidateId = some node) :
    (validCandidateNodes (factsOf others)).get? candidateId = some node := by
  obtain ⟨rfl, isEvent, accepted⟩ := (validCandidateNodes_iff hasher).mp found
  obtain ⟨isOther, valid⟩ := keeps.valid isEvent accepted
  exact (validCandidateNodes_iff hasher).mpr ⟨rfl, isOther, valid, trivial⟩

theorem Keeps.associationReferences {node : ContextSpaceAssociationNode}
    (references : associationReferencesAreValid (factsOf events) node) :
    associationReferencesAreValid (factsOf others) node := by
  obtain ⟨⟨primary, related⟩, ⟨spaceId, isOwner, isContext⟩, initial, origin⟩ := references
  have sameOwner : owner? (factsOf others) node.contextId = owner? (factsOf events) node.contextId :=
    (owner?_of_valid (keeps.validContexts isContext)).trans (owner?_of_valid isContext).symm
  refine ⟨⟨keeps.spaces primary, fun other member => keeps.spaces (related other member)⟩,
    ⟨spaceId, sameOwner ▸ isOwner, keeps.validContexts isContext⟩,
    fun isInitial => sameOwner ▸ initial isInitial, ?_⟩
  cases isOrigin : node.association.origin with
  | correction => trivial
  | candidateConfirmation candidateId =>
      rw [isOrigin] at origin
      obtain ⟨candidate, found, valid, -⟩ := origin
      have isCandidate := (validCandidates_iff hasher).mp ⟨found, valid⟩
      have kept := keeps.validCandidates ((validCandidateNodes_iff hasher).mpr isCandidate)
      obtain ⟨isNode, keptValid, submission, isSubmission, -⟩ :=
        BTreeMap.get?_filter_eq_some.mp kept
      exact ⟨candidate, isNode, keptValid, Option.isSome_iff_exists.mpr ⟨submission, isSubmission⟩⟩

theorem Keeps.associations {contextId : ContextId} {associationId : SpaceAssociationId}
    {node : ContextSpaceAssociationNode}
    (found : (reducedAssociations (factsOf events) contextId).nodes.get? associationId =
      some node) :
    (reducedAssociations (factsOf others) contextId).nodes.get? associationId = some node := by
  have candidate : ∀ associationId node,
      (reducedAssociations (factsOf events) contextId).nodes.get? associationId = some node →
        (associationCandidates (factsOf others) contextId).get? associationId = some node := by
    intro associationId node isNode
    obtain ⟨-, -, -, references⟩ := reducedAssociations_agrees isNode
    obtain ⟨rfl, sameContext, isEvent, accepted⟩ :=
      (reducedAssociations_iff hasher).mp isNode
    obtain ⟨isOther, valid⟩ := keeps.valid isEvent accepted
    have isAssociation := (associations_iff valid).mpr ⟨rfl, isOther⟩
    have ofContext : (associationsOf (factsOf others) contextId).get?
        node.association.associationId = some node :=
      BTreeMap.get?_filter_eq_some.mpr ⟨isAssociation, sameContext, valid⟩
    exact BTreeMap.get?_filter_eq_some.mpr ⟨ofContext, keeps.associationReferences references⟩
  refine reducedAssociations_eq_some.mpr ⟨candidate associationId node found, ?_⟩
  refine CausalGraph.Grounded.mono ?_ (reducedAssociations_eq_some.mp found).2
  intro other otherNode grounded isCandidate
  exact candidate other otherNode (reducedAssociations_eq_some.mpr ⟨isCandidate, grounded⟩)

theorem Keeps.context? {spaceId : SpaceId} {contextId : ContextId}
    (found : (contextIn? (projectSpaces (factsOf events)) spaceId contextId).isSome) :
    contextIn? (projectSpaces (factsOf others)) spaceId contextId =
      some (projectContext (factsOf others) (spaceId, contextId)) := by
  obtain ⟨context, isContext⟩ := Option.isSome_iff_exists.mp found
  obtain ⟨valid, -⟩ := contextIn?_projectSpaces.mp isContext
  exact contextIn?_projectSpaces.mpr ⟨keeps.validContexts valid, rfl⟩

theorem Keeps.resolveReference {node : EngineeringReferenceNode} {referenceId : ReferenceId}
    {projection : EngineeringReferenceProjection}
    (resolved : SharedContext.resolveReference (factsOf events) referenceId node =
      .ok projection) :
    SharedContext.resolveReference (factsOf others) referenceId node = .ok projection := by
  obtain ⟨wellFormed, spaceId, isContext, member, isProjection⟩ := resolveReference_eq_ok.mp resolved
  exact resolveReference_eq_ok.mpr ⟨wellFormed, spaceId, keeps.validContexts isContext,
    keeps.revisionKeys member, isProjection⟩

theorem Keeps.references {referenceId : ReferenceId} {projection : EngineeringReferenceProjection}
    (found : (engineeringReferences (factsOf events)).get? referenceId = some projection) :
    (engineeringReferences (factsOf others)).get? referenceId = some projection := by
  obtain ⟨node, rfl, isEvent, accepted, resolved⟩ :=
    (engineeringReferences_iff hasher).mp found
  obtain ⟨isOther, unique⟩ := keeps.accepted node.event isEvent accepted
  have once := unique (.reference node.reference.referenceId)
    (List.mem_cons_of_mem _ (List.mem_singleton_self _))
  exact engineeringReferences_eq_some.mpr ⟨node,
    referenceCandidates_iff.mpr ⟨rfl, isOther, valid_of_unique isOther unique, once⟩,
    keeps.resolveReference resolved⟩

/-! The ten checks of a confirmation, one by one. -/

theorem Keeps.resultRevision {confirmation : CandidateConfirmation}
    {projection : RevisionProjection}
    (found : resultRevision? (factsOf events) confirmation = some projection) :
    ∃ other, resultRevision? (factsOf others) confirmation = some other ∧
      other.revision = projection.revision := by
  obtain ⟨context, isContext, isRevision⟩ := Option.bind_eq_some_iff.mp found
  obtain ⟨valid, rfl⟩ := contextIn?_projectSpaces.mp isContext
  obtain ⟨node, isNode, rfl⟩ := get?_projectContext_revisions.mp isRevision
  have keptContext := keeps.context? (Option.isSome_iff_exists.mpr ⟨_, isContext⟩)
  have keptRevision := get?_projectContext_revisions.mpr ⟨node, keeps.revisions isNode, rfl⟩
  refine ⟨_, Option.bind_eq_some_iff.mpr ⟨_, keptContext, keptRevision⟩, ?_⟩
  rw [projectRevision_revision, projectRevision_revision]

theorem Keeps.resultPublication {confirmation : CandidateConfirmation} {publication : Publication}
    (found : resultPublication? (factsOf events) confirmation = some publication) :
    resultPublication? (factsOf others) confirmation = some publication := by
  obtain ⟨context, isContext, isPublication⟩ := Option.bind_eq_some_iff.mp found
  obtain ⟨valid, rfl⟩ := contextIn?_projectSpaces.mp isContext
  obtain ⟨node, isNode, rfl⟩ := get?_projectContext_publications.mp isPublication
  have keptContext := keeps.context? (Option.isSome_iff_exists.mpr ⟨_, isContext⟩)
  have keptPublication := get?_projectContext_publications.mpr
    ⟨node, keeps.publications valid isNode, rfl⟩
  exact Option.bind_eq_some_iff.mpr ⟨_, keptContext, keptPublication⟩

theorem Keeps.associationMatches {confirmation : CandidateConfirmation}
    (holds : associationMatches (factsOf events) confirmation) :
    SharedContext.associationMatches (factsOf others) confirmation := by
  obtain ⟨projection, found, rest⟩ := holds
  obtain ⟨node, isNode, isProjection⟩ := contextSpaceAssociations_eq_some.mp found
  exact ⟨projection,
    contextSpaceAssociations_eq_some.mpr ⟨node, keeps.associations isNode, isProjection⟩, rest⟩

theorem Keeps.revisionEventMatches {confirmation : CandidateConfirmation}
    (isResult : (resultRevision? (factsOf events) confirmation).isSome)
    (holds : revisionEventMatches (factsOf events) confirmation) :
    SharedContext.revisionEventMatches (factsOf others) confirmation := by
  obtain ⟨node, found, rest⟩ := holds
  obtain ⟨projection, isProjection⟩ := Option.isSome_iff_exists.mp isResult
  obtain ⟨context, isContext, isRevision⟩ := Option.bind_eq_some_iff.mp isProjection
  obtain ⟨valid, rfl⟩ := contextIn?_projectSpaces.mp isContext
  obtain ⟨other, isNode, -⟩ := get?_projectContext_revisions.mp isRevision
  obtain rfl := Option.some.inj ((contextCandidates_agrees isNode).1.symm.trans found)
  exact ⟨other, (keeps.contexts isNode).1, rest⟩

theorem Keeps.publicationEventMatches {confirmation : CandidateConfirmation}
    (isCausal : causalPublicationMatches (factsOf events) confirmation)
    (holds : publicationEventMatches (factsOf events) confirmation) :
    SharedContext.publicationEventMatches (factsOf others) confirmation := by
  obtain ⟨node, found, rest⟩ := holds
  obtain ⟨publication, isResult, -⟩ := isCausal
  obtain ⟨context, isContext, isPublication⟩ := Option.bind_eq_some_iff.mp isResult
  obtain ⟨valid, rfl⟩ := contextIn?_projectSpaces.mp isContext
  obtain ⟨other, isNode, -⟩ := get?_projectContext_publications.mp isPublication
  obtain rfl := Option.some.inj ((validPublications_agrees isNode).1.symm.trans found)
  exact ⟨other, (validPublications_agrees (keeps.publications valid isNode)).1, rest⟩

theorem Keeps.createdSpaceMatches {confirmation : CandidateConfirmation}
    (created : ∀ spaceId ∈ confirmation.createdSpaceId, spaceId ∈ validSpaces (factsOf events))
    (holds : createdSpaceMatches (factsOf events) confirmation confirmation.createdSpaceId) :
    SharedContext.createdSpaceMatches (factsOf others) confirmation
      confirmation.createdSpaceId := by
  cases isCreated : confirmation.createdSpaceId with
  | none =>
      rw [isCreated] at holds
      exact holds
  | some spaceId =>
      rw [isCreated] at holds
      obtain ⟨node, found, sameEvent⟩ := holds
      have isSpace := created spaceId isCreated
      exact ⟨node, (keeps.spaceCreation isSpace found).1, sameEvent⟩

theorem Keeps.engineeringReferenceEventsMatch {confirmation : CandidateConfirmation}
    (isResult : (resultRevision? (factsOf events) confirmation).isSome)
    (holds : engineeringReferenceEventsMatch (factsOf events) confirmation) :
    SharedContext.engineeringReferenceEventsMatch (factsOf others) confirmation := by
  intro eventId member
  obtain ⟨referenceId, node, found, rfl, sameContext, sameRevision, wellFormed, valid⟩ :=
    BTreeMap.any_iff.mp (holds eventId member)
  obtain ⟨projection, isProjection⟩ := Option.isSome_iff_exists.mp isResult
  obtain ⟨context, isContext, isRevision⟩ := Option.bind_eq_some_iff.mp isProjection
  obtain ⟨isValid, rfl⟩ := contextIn?_projectSpaces.mp isContext
  have isTarget := mem_keys_projectContext_revisions.mp (BTreeMap.mem_keys_of_get? isRevision)
  -- The named reference targets the confirmed revision, so it is itself accepted.
  have isOk : node.reference.validate = .ok () := by
    cases checked : node.reference.validate with
    | ok passed => rfl
    | error error => simp [checked, Result.isOk] at wellFormed
  have resolved : SharedContext.resolveReference (factsOf events) referenceId node =
      .ok ⟨node.eventId, _, node.contextId, node.revisionId, node.reference⟩ :=
    resolveReference_eq_ok.mpr ⟨isOk, confirmation.primarySpaceId, sameContext ▸ isValid,
      sameContext ▸ sameRevision ▸ isTarget, rfl⟩
  have candidate : (referenceCandidates (factsOf events)).get? referenceId = some node :=
    BTreeMap.get?_filter_eq_some.mpr ⟨found, valid⟩
  have isReference := engineeringReferences_eq_some.mpr ⟨node, candidate, resolved⟩
  obtain ⟨other, isOther, otherResolved⟩ :=
    engineeringReferences_eq_some.mp (keeps.references isReference)
  obtain ⟨rfl, isEvent, -⟩ := references_iff.mp found
  obtain ⟨isUnique, otherValid⟩ := BTreeMap.get?_filter_eq_some.mp isOther
  have isKept := (engineeringReferences_iff hasher).mp isReference
  obtain ⟨source, sameId, sourceEvent, accepted, -⟩ := isKept
  have isSource : (factsOf events).references.get? node.reference.referenceId = some source :=
    references_iff.mpr ⟨sameId, sourceEvent, (references_iff.mp found).2.2⟩
  obtain rfl := Option.some.inj (isSource.symm.trans found)
  obtain ⟨keptEvent, keptValid⟩ := keeps.valid sourceEvent accepted
  have keptReference : (factsOf others).references.get? source.reference.referenceId =
      some source := references_iff.mpr ⟨rfl, keptEvent, (references_iff.mp isUnique).2.2⟩
  exact BTreeMap.any_iff.mpr
    ⟨_, source, keptReference, rfl, sameContext, sameRevision, wellFormed, keptValid⟩

theorem Keeps.contentMatches {confirmation : CandidateConfirmation}
    (holds : contentMatches hasher (factsOf events) confirmation) :
    SharedContext.contentMatches hasher (factsOf others) confirmation := by
  obtain ⟨candidate, isCandidate, edited, isEdited, revision, isRevision, editedHash, sameHash⟩ :=
    holds
  obtain ⟨other, isOther, sameRevision⟩ := keeps.resultRevision isRevision
  exact ⟨candidate, keeps.validCandidates isCandidate, edited, isEdited, other, isOther,
    editedHash, sameRevision ▸ sameHash⟩

theorem Keeps.confirmation {confirmation : CandidateConfirmation}
    (created : ∀ spaceId ∈ confirmation.createdSpaceId, spaceId ∈ validSpaces (factsOf events))
    (isValid : ConfirmationIsValid hasher (factsOf events) confirmation) :
    ConfirmationIsValid hasher (factsOf others) confirmation where
  candidate := by
    obtain ⟨node, found, rest⟩ := isValid.candidate
    exact ⟨node, keeps.validCandidates found, rest⟩
  association := keeps.associationMatches isValid.association
  revision := by
    obtain ⟨projection, found⟩ := Option.isSome_iff_exists.mp isValid.revision
    obtain ⟨other, isOther, -⟩ := keeps.resultRevision found
    exact Option.isSome_iff_exists.mpr ⟨other, isOther⟩
  revisionEvent := keeps.revisionEventMatches isValid.revision isValid.revisionEvent
  causalPublication := by
    obtain ⟨publication, found, rest⟩ := isValid.causalPublication
    exact ⟨publication, keeps.resultPublication found, rest⟩
  publicationEvent :=
    keeps.publicationEventMatches isValid.causalPublication isValid.publicationEvent
  createdSpace := keeps.createdSpaceMatches created isValid.createdSpace
  engineeringReferences :=
    keeps.engineeringReferenceEventsMatch isValid.revision isValid.engineeringReferences
  content := keeps.contentMatches isValid.content
  spaces :=
    ⟨keeps.spaces isValid.spaces.1, fun spaceId member =>
      keeps.spaces (isValid.spaces.2 spaceId member)⟩

/-! Semantic conflicts and their resolutions. -/

theorem Keeps.participantRevision {spaceId : SpaceId} {participant : ConflictParticipant}
    {revision : ContextRevision}
    (found : participantRevision? (projectSpaces (factsOf events)) spaceId participant =
      some revision) :
    participantRevision? (projectSpaces (factsOf others)) spaceId participant =
      some revision := by
  obtain ⟨isContext, ⟨publication, isPublication, isPublish⟩, node, isNode, rest⟩ :=
    participantRevision?_eq_some.mp found
  exact participantRevision?_eq_some.mpr ⟨keeps.validContexts isContext,
    ⟨publication, keeps.publications isContext isPublication, isPublish⟩,
    node, keeps.revisions isNode, rest⟩

theorem Keeps.conflictIsValid {node : ConflictNode}
    (isValid : conflictIsValid (projectSpaces (factsOf events)) node) :
    SharedContext.conflictIsValid (projectSpaces (factsOf others)) node := by
  obtain ⟨isSpace, revisions, found, overlap⟩ := isValid
  refine ⟨mem_keys_projectSpaces.mpr (keeps.spaces (mem_keys_projectSpaces.mp isSpace)),
    revisions, ?_, overlap⟩
  refine mapM_eq_some.mpr ((mapM_eq_some.mp found).imp ?_)
  exact fun participant revision => keeps.participantRevision

theorem Keeps.conflicts {conflictId : ConflictId} {node : ConflictNode}
    (found : (validConflicts (factsOf events)).get? conflictId = some node) :
    (validConflicts (factsOf others)).get? conflictId = some node := by
  obtain ⟨-, -, isValid⟩ := validConflicts_agrees found
  obtain ⟨rfl, isEvent, accepted⟩ := (validConflicts_iff hasher).mp found
  obtain ⟨isOther, valid⟩ := keeps.valid isEvent accepted
  have isConflict := (conflicts_iff valid).mpr ⟨rfl, isOther⟩
  have isNode : (conflictNodes (factsOf others)).get? node.conflict.conflictId = some node :=
    BTreeMap.get?_filter_eq_some.mpr ⟨isConflict, valid⟩
  exact BTreeMap.get?_filter_eq_some.mpr ⟨isNode, keeps.conflictIsValid isValid⟩

theorem Keeps.resolutionIsValid {conflictNode : ConflictNode} {resolution : ConflictResolution}
    (isValid : resolutionIsValid (factsOf events) conflictNode resolution) :
    SharedContext.resolutionIsValid (factsOf others) conflictNode resolution := by
  obtain ⟨⟨sameContexts, results⟩, publications⟩ := isValid
  refine ⟨⟨sameContexts, fun result member => ?_⟩, fun publicationId member => ?_⟩
  · obtain ⟨context, isContext, isRevision⟩ := results result member
    obtain ⟨valid, rfl⟩ := contextIn?_projectSpaces.mp isContext
    refine ⟨_, keeps.context? (Option.isSome_iff_exists.mpr ⟨_, isContext⟩), ?_⟩
    exact mem_keys_projectContext_revisions.mpr
      (keeps.revisionKeys (mem_keys_projectContext_revisions.mp isRevision))
  · obtain ⟨contextId, isParticipant, context, isContext, isKey⟩ :=
      publications publicationId member
    obtain ⟨valid, rfl⟩ := contextIn?_projectSpaces.mp isContext
    refine ⟨contextId, isParticipant, _,
      keeps.context? (Option.isSome_iff_exists.mpr ⟨_, isContext⟩), ?_⟩
    obtain ⟨publication, found⟩ := BTreeMap.mem_keys_iff.mp isKey
    obtain ⟨node, isNode, rfl⟩ := get?_projectContext_publications.mp found
    exact BTreeMap.mem_keys_of_get?
      (get?_projectContext_publications.mpr ⟨node, keeps.publications valid isNode, rfl⟩)

theorem Keeps.resolutions {conflictId : ConflictId} {conflictNode : ConflictNode}
    (isConflict : (validConflicts (factsOf events)).get? conflictId = some conflictNode)
    {resolutionId : ResolutionId} {node : ResolutionNode}
    (found : (reducedResolutions (factsOf events) conflictId conflictNode).nodes.get?
      resolutionId = some node) :
    (reducedResolutions (factsOf others) conflictId conflictNode).nodes.get? resolutionId =
      some node := by
  have candidate : ∀ resolutionId node,
      (reducedResolutions (factsOf events) conflictId conflictNode).nodes.get? resolutionId =
        some node →
      (resolutionCandidates (factsOf others) conflictId conflictNode).get? resolutionId =
        some node := by
    intro resolutionId node isNode
    obtain ⟨-, -, -, sameSpace, isValid⟩ := reducedResolutions_agrees isNode
    obtain ⟨rfl, sameConflict, isEvent, accepted⟩ :=
      (reducedResolutions_iff hasher isConflict).mp isNode
    obtain ⟨isOther, valid⟩ := keeps.valid isEvent accepted
    have isResolution := (resolutions_iff valid).mpr ⟨rfl, isOther⟩
    have isLive : (resolutionNodes (factsOf others)).get? node.resolution.resolutionId =
        some node := BTreeMap.get?_filter_eq_some.mpr ⟨isResolution, valid⟩
    have ofConflict : (resolutionsOf (factsOf others) conflictId conflictNode).get?
        node.resolution.resolutionId = some node :=
      BTreeMap.get?_filter_eq_some.mpr ⟨isLive, sameConflict, sameSpace⟩
    exact BTreeMap.get?_filter_eq_some.mpr ⟨ofConflict, keeps.resolutionIsValid isValid⟩
  refine reducedResolutions_eq_some.mpr ⟨candidate resolutionId node found, ?_⟩
  refine CausalGraph.Grounded.mono ?_ (reducedResolutions_eq_some.mp found).2
  intro other otherNode grounded isCandidate
  exact candidate other otherNode (reducedResolutions_eq_some.mpr ⟨isCandidate, grounded⟩)

/-- What the first list accepts, the second accepts too. -/
theorem Keeps.accepts {event : ReducerEvent} (isEvent : event ∈ events)
    (accepted : event.Accepted hasher (factsOf events)) :
    event.Accepted hasher (factsOf others) := by
  refine ⟨(keeps.valid isEvent accepted).2, ?_⟩
  obtain ⟨eventId, payload⟩ := event
  cases payload with
  | contextCandidateCreated candidate => trivial
  | candidateConfirmed confirmation =>
      obtain ⟨created, isValid⟩ := accepted.holds
      exact ⟨fun spaceId member => keeps.spaces (created spaceId member),
        keeps.confirmation created isValid⟩
  | spaceCreated spaceId revision | spaceIntentRevisionAdded spaceId revision =>
      obtain ⟨isSpace, member⟩ := accepted.holds
      obtain ⟨node, found⟩ := BTreeMap.mem_keys_iff.mp member
      exact ⟨keeps.spaces isSpace, BTreeMap.mem_keys_of_get? (keeps.intents isSpace found)⟩
  | contextRevisionAdded spaceId contextId revision => exact keeps.revisionKeys accepted.holds
  | contextReviewed spaceId contextId review =>
      obtain ⟨node, found⟩ := BTreeMap.mem_keys_iff.mp accepted.holds
      exact BTreeMap.mem_keys_of_get? (keeps.reviews found)
  | contextPublicationChanged spaceId contextId publication =>
      obtain ⟨isContext, member⟩ := accepted.holds
      obtain ⟨node, found⟩ := BTreeMap.mem_keys_iff.mp member
      exact ⟨keeps.validContexts isContext,
        BTreeMap.mem_keys_of_get? (keeps.publications isContext found)⟩
  | contextSpaceAssociationChanged association =>
      obtain ⟨node, found⟩ := BTreeMap.mem_keys_iff.mp accepted.holds
      exact BTreeMap.mem_keys_of_get? (keeps.associations found)
  | semanticConflictOpened spaceId conflict =>
      obtain ⟨node, found⟩ := BTreeMap.mem_keys_iff.mp accepted.holds
      exact BTreeMap.mem_keys_of_get? (keeps.conflicts found)
  | semanticConflictResolutionAdded spaceId conflictId resolution =>
      obtain ⟨conflictNode, isConflict, member⟩ := accepted.holds
      obtain ⟨node, found⟩ := BTreeMap.mem_keys_iff.mp member
      exact ⟨conflictNode, keeps.conflicts isConflict,
        BTreeMap.mem_keys_of_get? (keeps.resolutions isConflict found)⟩
  | engineeringReferenceRecorded contextId revisionId reference =>
      obtain ⟨projection, found⟩ := BTreeMap.mem_keys_iff.mp accepted.holds
      exact BTreeMap.mem_keys_of_get? (keeps.references found)

end Phases

end SharedContext
