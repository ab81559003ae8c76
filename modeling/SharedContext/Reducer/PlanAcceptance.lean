import SharedContext.EventSchema.PlanEvents
import SharedContext.Reducer.Appends
import SharedContext.Reducer.Partition

/-!
# Accepting a confirmation plan

A reserved plan whose events join a history without repeating an identity or
touching a foreign Context is accepted: each of its facts passes every phase,
and the projection shows the new Context as accepted with one head.
-/

namespace SharedContext

variable {hasher : PlanHasher} {history events : List ReducerEvent}
  {plan : CandidateConfirmationPlan} {candidate : ContextCandidate}
  {selection : CandidatePrimarySelection} {openings : List SemanticConflictOpeningDraft}

/-! ### The nodes of a plan -/

namespace CandidateConfirmationPlan

variable (plan : CandidateConfirmationPlan)

def key : ContextKey :=
  (plan.confirmation.primarySpaceId, plan.resultContextId)

def contextNode : ContextNode :=
  ⟨plan.eventIds.contextRevisionEventId, plan.confirmation.primarySpaceId, plan.resultContextId,
    plan.resultRevision⟩

def associationNode : ContextSpaceAssociationNode :=
  ⟨plan.eventIds.spaceAssociationEventId, plan.spaceAssociation⟩

def publicationNode : PublicationNode :=
  ⟨plan.eventIds.publicationEventId, plan.confirmation.primarySpaceId, plan.resultContextId,
    plan.publication⟩

def referenceNode (eventId : EventId) (reference : EngineeringReference) :
    EngineeringReferenceNode :=
  ⟨eventId, plan.resultContextId, plan.resultRevision.revisionId, reference⟩

def conflictNode (eventId : EventId) (opening : SemanticConflictOpening) : ConflictNode :=
  ⟨eventId, opening.spaceId, opening.conflict⟩

def confirmationNode : CandidateConfirmationNode :=
  ⟨plan.eventIds.confirmationEventId, plan.confirmation⟩

theorem mem_events {event : ReducerEvent} :
    event ∈ plan.events ↔ event ∈ plan.spaceEvents ∨ event = plan.contextNode.event ∨
      event = plan.associationNode.event ∨ event = plan.publicationNode.event ∨
      (∃ eventId reference, (eventId, reference) ∈
          plan.eventIds.engineeringReferenceEventIds.zip plan.engineeringReferences ∧
        event = (plan.referenceNode eventId reference).event) ∨
      (∃ eventId opening, (eventId, opening) ∈
          plan.eventIds.semanticConflictEventIds.zip plan.openedConflicts ∧
        event = (conflictNode eventId opening).event) ∨
      event = plan.confirmationNode.event := by
  simp only [events, contextFacts, referenceFacts, conflictFacts, confirmationFact,
    List.mem_append, List.map_append, List.map_map, List.mem_map, List.map_cons, List.map_nil,
    List.mem_cons, List.not_mem_nil, or_false, or_assoc, Function.comp_apply, Prod.exists]
  refine or_congr_right (or_congr_right (or_congr_right (or_congr_right ?_)))
  refine or_congr ?_ (or_congr ?_ Iff.rfl)
  · exact exists_congr fun eventId => exists_congr fun reference =>
      and_congr_right fun _ => eq_comm
  · exact exists_congr fun eventId => exists_congr fun opening =>
      and_congr_right fun _ => eq_comm

theorem mem_spaceEvents {event : ReducerEvent} :
    event ∈ plan.spaceEvents ↔ ∃ newSpace eventId, plan.newSpace = some newSpace ∧
      plan.eventIds.spaceCreatedEventId = some eventId ∧
      event = IntentNode.creation ⟨eventId, newSpace.spaceId, newSpace.intentRevision⟩ := by
  unfold spaceEvents
  cases plan.newSpace <;> cases plan.eventIds.spaceCreatedEventId <;>
    simp [IntentNode.creation]

theorem context_member : plan.contextNode.event ∈ plan.events :=
  plan.mem_events.mpr (.inr (.inl rfl))

theorem association_member : plan.associationNode.event ∈ plan.events :=
  plan.mem_events.mpr (.inr (.inr (.inl rfl)))

theorem publication_member : plan.publicationNode.event ∈ plan.events :=
  plan.mem_events.mpr (.inr (.inr (.inr (.inl rfl))))

theorem reference_member {eventId : EventId} {reference : EngineeringReference}
    (isPair : (eventId, reference) ∈
      plan.eventIds.engineeringReferenceEventIds.zip plan.engineeringReferences) :
    (plan.referenceNode eventId reference).event ∈ plan.events :=
  plan.mem_events.mpr (.inr (.inr (.inr (.inr (.inl ⟨eventId, reference, isPair, rfl⟩)))))

theorem conflict_member {eventId : EventId} {opening : SemanticConflictOpening}
    (isPair : (eventId, opening) ∈
      plan.eventIds.semanticConflictEventIds.zip plan.openedConflicts) :
    (conflictNode eventId opening).event ∈ plan.events :=
  plan.mem_events.mpr (.inr (.inr (.inr (.inr (.inr (.inl ⟨eventId, opening, isPair, rfl⟩))))))

theorem confirmation_member : plan.confirmationNode.event ∈ plan.events :=
  plan.mem_events.mpr (.inr (.inr (.inr (.inr (.inr (.inr rfl))))))

end CandidateConfirmationPlan

theorem relations_valid {revision : ContextRevision} (passes : revision.validate = .ok ())
    {relation : ContextRelation} (member : relation ∈ revision.relations) :
    relation.validate = .ok () := by
  simp only [ContextRevision.validate, ContextRevisionDraft.validate, Result.bind_eq_ok,
    Result.exists_unit, Result.forM_eq_ok] at passes
  obtain ⟨-, -, -, -, -, -, -, -, -, -, relations, -⟩ := passes
  obtain ⟨index, isIndex⟩ := List.mem_iff_getElem?.mp member
  have isListed : (relation, index) ∈ revision.relations.zipIdx :=
    List.mk_mem_zipIdx_iff_getElem?.mpr isIndex
  have passed := relations (relation, index) isListed
  exact Result.context_eq_ok.mp passed

theorem scopeDimensionOverlaps_self (values : List String) :
    scopeDimensionOverlaps values values = true := by
  cases values with
  | nil => rfl
  | cons value rest => simp [scopeDimensionOverlaps]

theorem applicabilityOverlaps_self (applicability : Applicability) :
    applicabilityOverlaps applicability applicability = true := by
  simp only [applicabilityOverlaps, scopeDimensionOverlaps_self, Bool.and_self]

/-- A reserved plan joins a history: its events repeat no identity, its Context
is mentioned by no other event, and everything it refers to is valid there. -/
structure Landing (hasher : PlanHasher) (history events : List ReducerEvent)
    (candidate : ContextCandidate) (selection : CandidatePrimarySelection)
    (openings : List SemanticConflictOpeningDraft) (plan : CandidateConfirmationPlan) :
    Prop where
  reserved : plan.ReservedFor hasher candidate selection openings
  keeps : Keeps hasher.toContentHasher history events
  unique : ∀ event ∈ plan.events, event ∈ events ∧ event.UniqueIn events
  fresh : ∀ event ∈ history, plan.resultContextId ∉ event.mentionedContexts
  only : ∀ event ∈ events, plan.resultContextId ∈ event.mentionedContexts →
    event ∈ plan.events
  projected : ∃ node, (validCandidateNodes (factsOf history)).get? candidate.candidateId =
    some node ∧ node.candidate = candidate
  primary : ∀ spaceId ∈ selection.spaceId?, spaceId ∈ validSpaces (factsOf history)
  related : ∀ spaceId ∈ plan.confirmation.relatedSpaceIds,
    spaceId ∈ validSpaces (factsOf history)
  targets : ∀ relation ∈ plan.resultRevision.relations,
    ContextAlive (factsOf history) relation.targetContextId
  openings : ∀ opening ∈ openings, ∃ revision,
    participantRevision? (projectSpaces (factsOf history)) plan.confirmation.primarySpaceId
      opening.target = some revision ∧
    revision.topicKey = plan.resultRevision.topicKey ∧
    applicabilityOverlaps plan.resultRevision.applicability revision.applicability = true ∧
    plan.resultRevision.kind.isGoverned = true

namespace Landing

variable (landing : Landing hasher history events candidate selection openings plan)
include landing

theorem sound : plan.Sound hasher :=
  CandidateConfirmationPlan.sound landing.reserved.validated

theorem valid {event : ReducerEvent} (member : event ∈ plan.events) :
    event ∈ events ∧ event.eventId ∉ (factsOf events).invalidEventIds := by
  obtain ⟨isEvent, unique⟩ := landing.unique event member
  exact ⟨isEvent, valid_of_unique isEvent unique⟩

/-! ### Spaces -/

theorem newSpace_valid {newSpace : CandidateConfirmationNewSpace} {eventId : EventId}
    (isNew : plan.newSpace = some newSpace)
    (isCreation : plan.eventIds.spaceCreatedEventId = some eventId) :
    newSpace.spaceId ∈ validSpaces (factsOf events) := by
  have member : IntentNode.creation ⟨eventId, newSpace.spaceId, newSpace.intentRevision⟩ ∈
      plan.events := plan.mem_events.mpr
    (.inl (plan.mem_spaceEvents.mpr ⟨newSpace, eventId, isNew, isCreation, rfl⟩))
  obtain ⟨isEvent, unique⟩ := landing.unique _ member
  have once := unique (.spaceCreation newSpace.spaceId)
    (List.mem_cons_of_mem _ List.mem_cons_self)
  exact mem_validSpaces.mpr ⟨⟨eventId, newSpace.spaceId, newSpace.intentRevision⟩,
    spaceCreations_iff.mpr ⟨rfl, isEvent, once⟩, (landing.valid member).2⟩

theorem primary_valid : plan.confirmation.primarySpaceId ∈ validSpaces (factsOf events) := by
  cases selected : selection.spaceId? with
  | some spaceId =>
      rw [(landing.reserved.primary spaceId selected).1]
      exact landing.keeps.spaces (landing.primary spaceId selected)
  | none =>
      obtain ⟨newSpace, isNew, samePrimary, -⟩ := landing.reserved.creates selected
      have creation := landing.reserved.creation
      rw [Option.mem_def.mp isNew] at creation
      obtain ⟨eventId, isCreation⟩ := Option.isSome_iff_exists.mp creation
      rw [samePrimary]
      exact landing.newSpace_valid isNew isCreation

theorem related_valid {spaceId : SpaceId} (member : spaceId ∈ plan.confirmation.relatedSpaceIds) :
    spaceId ∈ validSpaces (factsOf events) :=
  landing.keeps.spaces (landing.related spaceId member)

theorem intent_valid {newSpace : CandidateConfirmationNewSpace} {eventId : EventId}
    (isNew : plan.newSpace = some newSpace)
    (isCreation : plan.eventIds.spaceCreatedEventId = some eventId) :
    newSpace.intentRevision.revisionId ∈
      (reducedIntents (factsOf events) newSpace.spaceId).nodes.keys := by
  let node : IntentNode := ⟨eventId, newSpace.spaceId, newSpace.intentRevision⟩
  have member : node.creation ∈ plan.events := plan.mem_events.mpr
    (.inl (plan.mem_spaceEvents.mpr ⟨newSpace, eventId, isNew, isCreation, rfl⟩))
  obtain ⟨isEvent, valid⟩ := landing.valid member
  have candidate : (intentCandidates (factsOf events) newSpace.spaceId).get?
      newSpace.intentRevision.revisionId = some node :=
    BTreeMap.get?_filter_eq_some.mpr
      ⟨(intents_iff valid).mpr ⟨rfl, .inl isEvent⟩, rfl, valid⟩
  have root : node.parents = [] := (landing.reserved.newSpace_parents isNew).1
  exact BTreeMap.mem_keys_of_get? (get?_reducedIntents.mpr
    ⟨candidate, CausalGraph.Grounded.of_no_parents candidate root⟩)

/-! ### The new Context -/

theorem owner : (factsOf events).contextOwners.get? plan.resultContextId =
    some {plan.confirmation.primarySpaceId} := by
  apply contextOwners_iff.mpr
  refine ⟨Finset.singleton_nonempty _, fun spaceId => ?_⟩
  rw [Finset.mem_singleton]
  constructor
  · rintro rfl
    exact ⟨plan.contextNode.event, (landing.valid plan.context_member).1,
      List.mem_singleton_self _, Finset.mem_singleton_self _⟩
  · rintro ⟨event, isEvent, mentioned, referenced⟩
    have member := landing.only event isEvent mentioned
    rcases plan.mem_events.mp member with isSpace | rfl | rfl | rfl | ⟨eventId, reference, -, rfl⟩ |
      ⟨eventId, opening, isPair, rfl⟩ | rfl
    · obtain ⟨newSpace, eventId, -, -, rfl⟩ := plan.mem_spaceEvents.mp isSpace
      cases mentioned
    · exact Finset.mem_singleton.mp referenced
    · cases mentioned
    · exact Finset.mem_singleton.mp referenced
    · cases mentioned
    · obtain ⟨draft, -, sameSpace, -⟩ :=
        exists_of_forall₂ landing.reserved.conflicts (List.of_mem_zip isPair).2
      exact (Finset.mem_singleton.mp referenced).trans sameSpace
    · cases mentioned

theorem owned : plan.key ∈ ownedContexts (factsOf events) :=
  mem_ownedContexts.mpr ⟨landing.owner, landing.primary_valid⟩

/-- The new revision survives the relation closure: its relations lead to
Contexts that the history keeps alive. -/
theorem revision_found :
    (validRevisions (factsOf events) plan.key).get? plan.resultRevision.revisionId =
      some plan.contextNode := by
  obtain ⟨isEvent, valid⟩ := landing.valid plan.context_member
  have isContext := (contexts_iff valid).mpr ⟨rfl, isEvent⟩
  have candidate : (contextCandidates (factsOf events) plan.key).get?
      plan.resultRevision.revisionId = some plan.contextNode :=
    BTreeMap.get?_filter_eq_some.mpr ⟨isContext, rfl, rfl, valid⟩
  have root : plan.contextNode.parents = [] := landing.reserved.revision
  let keep : ContextKey → RevisionId → Prop := fun key revisionId =>
    (∃ node, (validRevisions (factsOf events) key).get? revisionId = some node) ∨
      key = plan.key ∧ revisionId = plan.resultRevision.revisionId
  have sound : ∀ key revisionId, keep key revisionId → ∃ node,
      key ∈ ownedContexts (factsOf events) ∧
        (contextCandidates (factsOf events) key).get? revisionId = some node ∧
        CausalGraph.Grounded (contextCandidates (factsOf events) key) ContextNode.parents
          revisionId ∧
        RelationsHold (fun target => ∃ spaceId other, keep (spaceId, target) other) key.2 node ∧
        ∀ parent ∈ node.parents, keep key parent := by
    intro key revisionId kept
    rcases kept with ⟨node, found⟩ | ⟨rfl, rfl⟩
    · obtain ⟨owned, isCandidate, grounded, -⟩ := get?_validRevisions_eq_some.mp found
      refine ⟨node, owned, isCandidate, grounded, ?_, ?_⟩
      · intro relation member
        obtain ⟨wellFormed, notSelf, spaceId, alive⟩ := relationsHold_of_valid found relation member
        obtain ⟨other, target, isTarget⟩ := mem_keys_validContexts.mp alive
        exact ⟨wellFormed, notSelf, spaceId, other, .inl ⟨target, isTarget⟩⟩
      · exact fun parent member => .inl (parents_valid_of_valid found member)
    · refine ⟨plan.contextNode, landing.owned, candidate,
        CausalGraph.Grounded.of_no_parents candidate root, ?_, ?_⟩
      · intro relation member
        obtain ⟨spaceId, alive⟩ := landing.targets relation member
        refine ⟨relations_valid landing.sound.revision member, ?_, spaceId, ?_⟩
        · intro isSelf
          obtain ⟨revisionId, node, found⟩ := mem_keys_validContexts.mp alive
          obtain ⟨-, sameKey, isDefiner, -⟩ :=
            (validRevisions_iff hasher.toContentHasher).mp found
          have sameContext : node.contextId = plan.resultContextId :=
            (congrArg Prod.snd sameKey).trans isSelf
          exact landing.fresh node.event isDefiner (sameContext ▸ List.mem_singleton_self _)
        · obtain ⟨other, target, isTarget⟩ :=
            mem_keys_validContexts.mp (landing.keeps.validContexts alive)
          exact ⟨other, .inl ⟨target, isTarget⟩⟩
      · rw [root]
        exact fun parent member => absurd member List.not_mem_nil
  obtain ⟨node, found⟩ := get?_validRevisions_of_sound keep sound (.inr ⟨rfl, rfl⟩)
  have sameNode := (contextCandidates_agrees found).1.symm.trans isContext
  rw [found, Option.some.inj sameNode]

theorem context_valid : plan.key ∈ (validContexts (factsOf events)).keys :=
  mem_keys_validContexts.mpr ⟨_, _, landing.revision_found⟩

theorem revision_key : plan.resultRevision.revisionId ∈
    (validRevisions (factsOf events) plan.key).keys :=
  BTreeMap.mem_keys_of_get? landing.revision_found

/-! ### Its publication -/

theorem publishes : plan.publication.revisionId = plan.resultRevision.revisionId := by
  obtain ⟨-, -, -, -, -, -, publishes, -⟩ := landing.sound.identities
  exact publishes

theorem publication_found :
    (validPublications (factsOf events) plan.key).get? plan.publication.publicationId =
      some plan.publicationNode := by
  obtain ⟨isEvent, valid⟩ := landing.valid plan.publication_member
  obtain ⟨noParents, -, noReviews⟩ := landing.reserved.publication
  have isPublication := (publications_iff valid).mpr ⟨rfl, isEvent⟩
  have live : (livePublications (factsOf events)).get? plan.publication.publicationId =
      some plan.publicationNode := BTreeMap.get?_filter_eq_some.mpr ⟨isPublication, valid⟩
  have references : publicationReferencesAreValid (factsOf events) plan.publicationNode := by
    refine ⟨?_, fun eventId member => ?_⟩
    · change plan.publication.revisionId ∈ _
      rw [landing.publishes]
      exact landing.revision_key
    · change eventId ∈ plan.publication.reviewEventIds at member
      rw [noReviews] at member
      cases member
  have candidate : (publicationCandidates (factsOf events) plan.key).get?
      plan.publication.publicationId = some plan.publicationNode :=
    BTreeMap.get?_filter_eq_some.mpr ⟨live, rfl, references⟩
  exact validPublications_eq_some.mpr
    ⟨candidate, CausalGraph.Grounded.of_no_parents candidate noParents⟩

theorem publication_only {publicationId : PublicationId} {node : PublicationNode}
    (found : (validPublications (factsOf events) plan.key).get? publicationId = some node) :
    node = plan.publicationNode ∧ publicationId = plan.publication.publicationId := by
  obtain ⟨rfl, sameKey, isEvent, -⟩ :=
    (validPublications_iff hasher.toContentHasher).mp ⟨landing.context_valid, found⟩
  have sameContext : node.contextId = plan.resultContextId := congrArg Prod.snd sameKey
  have member := landing.only node.event isEvent (sameContext ▸ List.mem_singleton_self _)
  rcases plan.mem_events.mp member with isSpace | same | same | same | ⟨_, _, -, same⟩ |
    ⟨_, _, -, same⟩ | same
  · obtain ⟨newSpace, eventId, -, -, same⟩ := plan.mem_spaceEvents.mp isSpace
    cases congrArg ReducerEvent.payload same
  · cases congrArg ReducerEvent.payload same
  · cases congrArg ReducerEvent.payload same
  · obtain ⟨eventId, spaceId, contextId, publication⟩ := node
    cases same
    exact ⟨rfl, rfl⟩
  all_goals cases congrArg ReducerEvent.payload same

theorem publicationHeads_eq :
    publicationHeads (factsOf events) plan.key = {plan.publication.publicationId} := by
  ext publicationId
  rw [publicationHeads, reducedPublications, mem_heads_of_nodes, Finset.mem_singleton]
  constructor
  · rintro ⟨⟨node, found⟩, -⟩
    exact (landing.publication_only found).2
  · rintro rfl
    refine ⟨⟨_, landing.publication_found⟩, fun child node found => ?_⟩
    rw [(landing.publication_only found).1]
    change _ ∉ plan.publication.previousPublicationIds
    rw [landing.reserved.publication.1]
    exact List.not_mem_nil

theorem governance_eq : (projectContext (factsOf events) plan.key).governance =
    .accepted plan.publication.publicationId plan.resultRevision.revisionId := by
  have onlyHead : first? ({plan.publication.publicationId} : Finset PublicationId) =
      some plan.publication.publicationId := Finset.min_singleton
  change contextGovernance _ _ = _
  rw [landing.publicationHeads_eq, contextGovernance, Finset.card_singleton,
    if_neg (by omega), if_pos rfl, onlyHead, Option.bind_some, landing.publication_found]
  change ContextGovernanceStatus.ofHead plan.publication.publicationId plan.publication = _
  rw [ContextGovernanceStatus.ofHead, landing.reserved.publication.2.1, landing.publishes]

/-! ### Its association -/

theorem association_found :
    (reducedAssociations (factsOf events) plan.resultContextId).nodes.get?
      plan.spaceAssociation.associationId = some plan.associationNode := by
  obtain ⟨-, -, -, -, -, -, -, ofContext, samePrimary, sameRelated, -⟩ :=
    landing.sound.identities
  obtain ⟨isEvent, valid⟩ := landing.valid plan.association_member
  obtain ⟨noParents, isOrigin⟩ := landing.reserved.association
  have isOwner : owner? (factsOf events) plan.associationNode.contextId =
      some plan.spaceAssociation.primarySpaceId := by
    change owner? _ plan.spaceAssociation.contextId = _
    rw [ofContext, samePrimary]
    exact owner?_of_valid landing.context_valid
  have references : associationReferencesAreValid (factsOf events) plan.associationNode := by
    refine ⟨⟨?_, ?_⟩, ⟨plan.spaceAssociation.primarySpaceId, isOwner, ?_⟩, fun _ => isOwner, ?_⟩
    · change plan.spaceAssociation.primarySpaceId ∈ _
      rw [samePrimary]
      exact landing.primary_valid
    · change ∀ spaceId ∈ plan.spaceAssociation.relatedSpaceIds, _
      rw [sameRelated]
      exact fun spaceId member => landing.related_valid member
    · change (_, plan.spaceAssociation.contextId) ∈ _
      rw [samePrimary, ofContext]
      exact landing.context_valid
    · change originCandidateExists _ plan.spaceAssociation.origin
      rw [isOrigin]
      obtain ⟨node, found, -⟩ := landing.projected
      obtain ⟨isNode, isValid, submission, isSubmission, -⟩ :=
        BTreeMap.get?_filter_eq_some.mp (landing.keeps.validCandidates found)
      exact ⟨node, isNode, isValid, Option.isSome_iff_exists.mpr ⟨submission, isSubmission⟩⟩
  have isAssociation := (associations_iff valid).mpr ⟨rfl, isEvent⟩
  have ofResult : (associationsOf (factsOf events) plan.resultContextId).get?
      plan.spaceAssociation.associationId = some plan.associationNode :=
    BTreeMap.get?_filter_eq_some.mpr ⟨isAssociation, ofContext, valid⟩
  have candidate : (associationCandidates (factsOf events) plan.resultContextId).get?
      plan.spaceAssociation.associationId = some plan.associationNode :=
    BTreeMap.get?_filter_eq_some.mpr ⟨ofResult, references⟩
  exact reducedAssociations_eq_some.mpr
    ⟨candidate, CausalGraph.Grounded.of_no_parents candidate noParents⟩

/-! ### Its engineering references and conflicts -/

theorem reference_found {eventId : EventId} {reference : EngineeringReference}
    (isPair : (eventId, reference) ∈
      plan.eventIds.engineeringReferenceEventIds.zip plan.engineeringReferences) :
    (engineeringReferences (factsOf events)).get? reference.referenceId =
      some ⟨eventId, plan.confirmation.primarySpaceId, plan.resultContextId,
        plan.resultRevision.revisionId, reference⟩ := by
  have member := plan.reference_member isPair
  obtain ⟨isEvent, unique⟩ := landing.unique _ member
  have once := unique (.reference reference.referenceId)
    (List.mem_cons_of_mem _ List.mem_cons_self)
  have candidate := referenceCandidates_iff.mpr
    ⟨rfl, isEvent, (landing.valid member).2, once⟩
  refine engineeringReferences_eq_some.mpr
    ⟨plan.referenceNode eventId reference, candidate, resolveReference_eq_ok.mpr ?_⟩
  exact ⟨landing.sound.references reference (List.of_mem_zip isPair).2,
    plan.confirmation.primarySpaceId, landing.context_valid, landing.revision_key, rfl⟩

theorem source_revision (governed : plan.resultRevision.kind.isGoverned = true) :
    participantRevision? (projectSpaces (factsOf events)) plan.confirmation.primarySpaceId
      ⟨plan.resultContextId, plan.resultRevision.revisionId, plan.publication.publicationId⟩ =
        some plan.resultRevision :=
  participantRevision?_eq_some.mpr ⟨landing.context_valid,
    ⟨_, landing.publication_found, landing.reserved.publication.2.1, landing.publishes⟩,
    _, landing.revision_found, governed, rfl⟩

theorem conflict_found {eventId : EventId} {opening : SemanticConflictOpening}
    (isPair : (eventId, opening) ∈
      plan.eventIds.semanticConflictEventIds.zip plan.openedConflicts) :
    (validConflicts (factsOf events)).get? opening.conflict.conflictId =
      some (CandidateConfirmationPlan.conflictNode eventId opening) := by
  obtain ⟨isEvent, valid⟩ := landing.valid (plan.conflict_member isPair)
  obtain ⟨draft, isDraft, samePrimary, sameConflict⟩ :=
    exists_of_forall₂ landing.reserved.conflicts (List.of_mem_zip isPair).2
  obtain ⟨target, isTarget, sameTopic, overlaps, governed⟩ := landing.openings draft isDraft
  have isConflict := (conflicts_iff valid).mpr ⟨rfl, isEvent⟩
  have isNode : (conflictNodes (factsOf events)).get? opening.conflict.conflictId =
      some (CandidateConfirmationPlan.conflictNode eventId opening) :=
    BTreeMap.get?_filter_eq_some.mpr ⟨isConflict, valid⟩
  refine BTreeMap.get?_filter_eq_some.mpr ⟨isNode, ?_, [plan.resultRevision, target], ?_, ?_⟩
  · change opening.spaceId ∈ _
    rw [samePrimary]
    exact mem_keys_projectSpaces.mpr landing.primary_valid
  · change opening.conflict.participants.mapM (participantRevision? _ opening.spaceId) = _
    rw [samePrimary, sameConflict]
    apply mapM_eq_some.mpr
    exact .cons (landing.source_revision governed)
      (.cons (landing.keeps.participantRevision isTarget) .nil)
  · change participantsOverlap opening.conflict _
    rw [sameConflict]
    constructor
    · exact List.pairwise_pair.mpr ⟨sameTopic.symm, overlaps⟩
    · intro revision member
      rcases List.mem_pair.mp member with rfl | rfl
      · exact applicabilityOverlaps_self _
      · exact overlaps

/-! ### Its confirmation -/

theorem reference_zipped {eventId : EventId}
    (member : eventId ∈ plan.eventIds.engineeringReferenceEventIds) :
    ∃ reference, (eventId, reference) ∈
      plan.eventIds.engineeringReferenceEventIds.zip plan.engineeringReferences := by
  obtain ⟨-, -, -, -, -, -, -, -, -, -, -, sameLength, -⟩ := landing.sound.identities
  obtain ⟨index, isIndex, rfl⟩ := List.mem_iff_getElem.mp member
  have isReference : index < plan.engineeringReferences.length := sameLength ▸ isIndex
  refine ⟨plan.engineeringReferences[index], List.mem_iff_getElem.mpr ⟨index, ?_, ?_⟩⟩
  · rw [List.length_zip]
    omega
  · rw [List.getElem_zip]

theorem resultContext : resultContext? (factsOf events) plan.confirmation =
    some (projectContext (factsOf events) plan.key) := by
  obtain ⟨-, -, sameContext, -⟩ := landing.sound.identities
  rw [resultContext?, ← sameContext]
  exact contextIn?_projectSpaces.mpr ⟨landing.context_valid, rfl⟩

theorem resultRevision : ∃ projection,
    resultRevision? (factsOf events) plan.confirmation = some projection ∧
      projection.revision = plan.resultRevision := by
  obtain ⟨-, -, -, sameRevision, -⟩ := landing.sound.identities
  have isRevision := get?_projectContext_revisions.mpr ⟨_, landing.revision_found, rfl⟩
  rw [sameRevision] at isRevision
  exact ⟨_, Option.bind_eq_some_iff.mpr ⟨_, landing.resultContext, isRevision⟩,
    projectRevision_revision _ _ _ _ _⟩

theorem resultPublication : resultPublication? (factsOf events) plan.confirmation =
    some plan.publication := by
  obtain ⟨-, -, -, -, -, samePublication, -⟩ := landing.sound.identities
  refine Option.bind_eq_some_iff.mpr ⟨_, landing.resultContext, ?_⟩
  rw [← samePublication]
  exact get?_projectContext_publications.mpr ⟨_, landing.publication_found, rfl⟩

theorem candidateMatches : candidateMatches (factsOf events) plan.confirmation := by
  obtain ⟨node, found, isCandidate⟩ := landing.projected
  refine ⟨node, ?_, ?_, ?_⟩
  · rw [landing.reserved.candidateId]
    exact landing.keeps.validCandidates found
  · rw [isCandidate, landing.reserved.submissionId]
  · rw [isCandidate, landing.reserved.sourceEpisode]

theorem associationMatches : associationMatches (factsOf events) plan.confirmation := by
  obtain ⟨-, sameCandidate, sameContext, -, sameAssociation, -, -, ofContext, samePrimary,
    sameRelated, -⟩ := landing.sound.identities
  refine ⟨⟨plan.associationNode.eventId, plan.spaceAssociation⟩, ?_, landing.sound.causal.2.2.1,
    ofContext.trans sameContext, samePrimary, by rw [sameRelated], ?_⟩
  · rw [← sameAssociation]
    refine contextSpaceAssociations_eq_some.mpr ⟨plan.associationNode, ?_, rfl⟩
    change (reducedAssociations _ plan.spaceAssociation.contextId).nodes.get? _ = _
    rw [ofContext]
    exact landing.association_found
  · rw [landing.reserved.candidateId]
    exact landing.reserved.association.2

theorem createdSpaceMatches :
    createdSpaceMatches (factsOf events) plan.confirmation plan.confirmation.createdSpaceId := by
  rw [landing.reserved.created]
  have creation := landing.reserved.creation
  cases isNew : plan.newSpace with
  | none =>
      rw [isNew] at creation
      change plan.confirmation.causalRefs.spaceCreatedEventId = none
      rw [← landing.sound.causal.1]
      exact Option.isSome_eq_false_iff.mp creation |> Option.isNone_iff_eq_none.mp
  | some newSpace =>
      rw [isNew] at creation
      obtain ⟨eventId, isCreation⟩ := Option.isSome_iff_exists.mp creation
      have member := plan.mem_events.mpr
        (.inl (plan.mem_spaceEvents.mpr ⟨newSpace, eventId, isNew, isCreation, rfl⟩))
      obtain ⟨isEvent, unique⟩ := landing.unique _ member
      have once := unique (.spaceCreation newSpace.spaceId)
        (List.mem_cons_of_mem _ List.mem_cons_self)
      refine ⟨⟨eventId, newSpace.spaceId, newSpace.intentRevision⟩,
        spaceCreations_iff.mpr ⟨rfl, isEvent, once⟩, ?_⟩
      rw [← landing.sound.causal.1, isCreation]

theorem engineeringReferenceEventsMatch :
    engineeringReferenceEventsMatch (factsOf events) plan.confirmation := by
  obtain ⟨-, -, sameContext, sameRevision, -, -, -, -, -, -, sameEvents, -⟩ :=
    landing.sound.identities
  intro eventId member
  rw [← sameEvents] at member
  obtain ⟨reference, isPair⟩ := landing.reference_zipped member
  have isMember := plan.reference_member isPair
  obtain ⟨isEvent, unique⟩ := landing.unique _ isMember
  have once := unique (.reference reference.referenceId)
    (List.mem_cons_of_mem _ List.mem_cons_self)
  refine BTreeMap.any_iff.mpr ⟨reference.referenceId, plan.referenceNode eventId reference,
    references_iff.mpr ⟨rfl, isEvent, once⟩, rfl, sameContext, sameRevision, ?_,
    (landing.valid isMember).2⟩
  change reference.validate.isOk = true
  rw [landing.sound.references reference (List.of_mem_zip isPair).2]
  rfl

theorem contentMatches :
    contentMatches hasher.toContentHasher (factsOf events) plan.confirmation := by
  obtain ⟨-, -, -, -, -, -, -, -, -, -, -, -, -, sameContent⟩ := landing.sound.identities
  obtain ⟨node, found, isCandidate⟩ := landing.projected
  obtain ⟨projection, isRevision, sameRevision⟩ := landing.resultRevision
  refine ⟨node, ?_, contextRevisionAsDraft plan.resultRevision, ?_, projection, isRevision,
    sameContent, ?_⟩
  · rw [landing.reserved.candidateId]
    exact landing.keeps.validCandidates found
  · rw [isCandidate, landing.reserved.content]
    rfl
  · rw [sameRevision]
    exact sameContent

theorem confirmationIsValid :
    ConfirmationIsValid hasher.toContentHasher (factsOf events) plan.confirmation where
  candidate := landing.candidateMatches
  association := landing.associationMatches
  revision := by
    obtain ⟨projection, isRevision, -⟩ := landing.resultRevision
    exact Option.isSome_iff_exists.mpr ⟨projection, isRevision⟩
  revisionEvent := by
    obtain ⟨-, -, sameContext, sameRevision, -⟩ := landing.sound.identities
    obtain ⟨isEvent, valid⟩ := landing.valid plan.context_member
    exact ⟨plan.contextNode, (contexts_iff valid).mpr ⟨sameRevision.symm, isEvent⟩,
      landing.sound.causal.2.1, rfl, sameContext⟩
  causalPublication := by
    obtain ⟨-, -, -, sameRevision, -⟩ := landing.sound.identities
    exact ⟨plan.publication, landing.resultPublication, landing.reserved.publication.2.1,
      landing.publishes.trans sameRevision⟩
  publicationEvent := by
    obtain ⟨-, -, sameContext, -, -, samePublication, -⟩ := landing.sound.identities
    obtain ⟨isEvent, valid⟩ := landing.valid plan.publication_member
    exact ⟨plan.publicationNode, (publications_iff valid).mpr ⟨samePublication.symm, isEvent⟩,
      landing.sound.causal.2.2.2, rfl, sameContext⟩
  createdSpace := landing.createdSpaceMatches
  engineeringReferences := landing.engineeringReferenceEventsMatch
  content := landing.contentMatches
  spaces := ⟨landing.primary_valid, fun _ member => landing.related_valid member⟩

/-! ### All events are accepted -/

theorem created_valid {spaceId : SpaceId} (isCreated : plan.confirmation.createdSpaceId =
    some spaceId) : spaceId ∈ validSpaces (factsOf events) := by
  rw [landing.reserved.created, Option.map_eq_some_iff] at isCreated
  obtain ⟨newSpace, isNew, rfl⟩ := isCreated
  obtain ⟨-, -, samePrimary⟩ := landing.reserved.newSpace_parents isNew
  rw [← samePrimary]
  exact landing.primary_valid

theorem accepted {event : ReducerEvent} (member : event ∈ plan.events) :
    event.Accepted hasher.toContentHasher (factsOf events) := by
  refine ⟨(landing.valid member).2, ?_⟩
  rcases plan.mem_events.mp member with isSpace | rfl | rfl | rfl | ⟨eventId, reference, isPair, rfl⟩ |
    ⟨eventId, opening, isPair, rfl⟩ | rfl
  · obtain ⟨newSpace, eventId, isNew, isCreation, rfl⟩ := plan.mem_spaceEvents.mp isSpace
    exact ⟨landing.newSpace_valid isNew isCreation, landing.intent_valid isNew isCreation⟩
  · exact landing.revision_key
  · obtain ⟨-, -, -, -, -, -, -, ofContext, -⟩ := landing.sound.identities
    change plan.spaceAssociation.associationId ∈
      (reducedAssociations _ plan.spaceAssociation.contextId).nodes.keys
    rw [ofContext]
    exact BTreeMap.mem_keys_of_get? landing.association_found
  · exact ⟨landing.context_valid, BTreeMap.mem_keys_of_get? landing.publication_found⟩
  · exact BTreeMap.mem_keys_of_get? (landing.reference_found isPair)
  · exact BTreeMap.mem_keys_of_get? (landing.conflict_found isPair)
  · exact ⟨fun spaceId isCreated => landing.created_valid isCreated,
      landing.confirmationIsValid⟩

end Landing

end SharedContext
