import SharedContext.Reducer.Independence

/-!
# The phases on an independent part

Every phase of the reducer, run on the facts of an independent part, gives
what it gives on the facts of the whole list, restricted to the identifiers of
the part.  The phases look facts up by identifiers only, and an event of the
part mentions no identifier outside it.
-/

namespace SharedContext

/-! ### The events of the facts -/

section Sources

variable {events : List ReducerEvent}

theorem candidateNode_event {key : CandidateId} {node : CandidateNode}
    (found : (factsOf events).candidates.get? key = some node) :
    key = node.candidate.candidateId ∧ node.event ∈ events := by
  rw [factsOf_candidates] at found
  exact DefinitionTable.event_of_found (fun _ => mem_candidateTable) found

theorem confirmationNode_event {key : CandidateId} {node : CandidateConfirmationNode}
    (found : (factsOf events).confirmationsByCandidate.get? key = some node) :
    key = node.confirmation.candidateId ∧ node.event ∈ events := by
  rw [factsOf_confirmationsByCandidate] at found
  exact DefinitionTable.event_of_found (fun _ => mem_confirmationByCandidateTable) found

theorem associationNode_event {key : SpaceAssociationId} {node : ContextSpaceAssociationNode}
    (found : (factsOf events).associations.get? key = some node) :
    key = node.association.associationId ∧ node.event ∈ events := by
  rw [factsOf_associations] at found
  exact DefinitionTable.event_of_found (fun _ => mem_associationTable) found

theorem intentNode_event {key : RevisionId} {node : IntentNode}
    (found : (factsOf events).intents.get? key = some node) :
    key = node.revision.revisionId ∧ (node.creation ∈ events ∨ node.addition ∈ events) := by
  rw [factsOf_intents] at found
  obtain ⟨event, isEvent, isEntry⟩ := intentTable.exists_event found
  obtain ⟨keyEq, rfl | rfl⟩ := mem_intentTable.mp isEntry
  · exact ⟨keyEq, .inl isEvent⟩
  · exact ⟨keyEq, .inr isEvent⟩

theorem contextNode_event {key : RevisionId} {node : ContextNode}
    (found : (factsOf events).contexts.get? key = some node) :
    key = node.revision.revisionId ∧ node.event ∈ events := by
  rw [factsOf_contexts] at found
  exact DefinitionTable.event_of_found (fun _ => mem_contextTable) found

theorem reviewNode_event {key : ReviewId} {node : ReviewNode}
    (found : (factsOf events).reviews.get? key = some node) :
    key = node.review.reviewId ∧ node.event ∈ events := by
  rw [factsOf_reviews] at found
  exact DefinitionTable.event_of_found (fun _ => mem_reviewTable) found

theorem publicationNode_event {key : PublicationId} {node : PublicationNode}
    (found : (factsOf events).publications.get? key = some node) :
    key = node.publication.publicationId ∧ node.event ∈ events := by
  rw [factsOf_publications] at found
  exact DefinitionTable.event_of_found (fun _ => mem_publicationTable) found

theorem conflictNode_event {key : ConflictId} {node : ConflictNode}
    (found : (factsOf events).conflicts.get? key = some node) :
    key = node.conflict.conflictId ∧ node.event ∈ events := by
  rw [factsOf_conflicts] at found
  exact DefinitionTable.event_of_found (fun _ => mem_conflictTable) found

theorem resolutionNode_event {key : ResolutionId} {node : ResolutionNode}
    (found : (factsOf events).resolutions.get? key = some node) :
    key = node.resolution.resolutionId ∧ node.event ∈ events := by
  rw [factsOf_resolutions] at found
  exact DefinitionTable.event_of_found (fun _ => mem_resolutionTable) found

end Sources

variable {mine : Set AnyId} {whole part : List ReducerEvent} (isPart : Part mine whole part)

/-! ### The tables of facts -/

section Tables

include isPart

theorem Part.candidates : BTreeMap.Restricts (fun key => key.any ∈ mine)
    (factsOf whole).candidates (factsOf part).candidates := by
  rw [factsOf_candidates, factsOf_candidates]
  exact isPart.unique candidateTable fun _ => rfl

theorem Part.submissions : BTreeMap.Restricts (fun key => key.any ∈ mine)
    (factsOf whole).submissions (factsOf part).submissions := by
  rw [factsOf_submissions, factsOf_submissions]
  exact isPart.unique submissionTable fun _ => rfl

theorem Part.confirmationsByCandidate : BTreeMap.Restricts (fun key => key.any ∈ mine)
    (factsOf whole).confirmationsByCandidate (factsOf part).confirmationsByCandidate := by
  rw [factsOf_confirmationsByCandidate, factsOf_confirmationsByCandidate]
  exact isPart.unique confirmationByCandidateTable fun _ => rfl

theorem Part.associations : BTreeMap.Restricts (fun key => key.any ∈ mine)
    (factsOf whole).associations (factsOf part).associations := by
  rw [factsOf_associations, factsOf_associations]
  exact isPart.unique associationTable fun _ => rfl

theorem Part.spaceCreations : BTreeMap.Restricts (fun key => key.any ∈ mine)
    (factsOf whole).spaceCreations (factsOf part).spaceCreations := by
  rw [factsOf_spaceCreations, factsOf_spaceCreations]
  exact isPart.unique spaceCreationTable fun _ => rfl

theorem Part.intents : BTreeMap.Restricts (fun key => key.any ∈ mine)
    (factsOf whole).intents (factsOf part).intents := by
  rw [factsOf_intents, factsOf_intents]
  exact isPart.unique intentTable fun _ => rfl

theorem Part.contexts : BTreeMap.Restricts (fun key => key.any ∈ mine)
    (factsOf whole).contexts (factsOf part).contexts := by
  rw [factsOf_contexts, factsOf_contexts]
  exact isPart.unique contextTable fun _ => rfl

theorem Part.reviews : BTreeMap.Restricts (fun key => key.any ∈ mine)
    (factsOf whole).reviews (factsOf part).reviews := by
  rw [factsOf_reviews, factsOf_reviews]
  exact isPart.unique reviewTable fun _ => rfl

theorem Part.publications : BTreeMap.Restricts (fun key => key.any ∈ mine)
    (factsOf whole).publications (factsOf part).publications := by
  rw [factsOf_publications, factsOf_publications]
  exact isPart.unique publicationTable fun _ => rfl

theorem Part.conflicts : BTreeMap.Restricts (fun key => key.any ∈ mine)
    (factsOf whole).conflicts (factsOf part).conflicts := by
  rw [factsOf_conflicts, factsOf_conflicts]
  exact isPart.unique conflictTable fun _ => rfl

theorem Part.resolutions : BTreeMap.Restricts (fun key => key.any ∈ mine)
    (factsOf whole).resolutions (factsOf part).resolutions := by
  rw [factsOf_resolutions, factsOf_resolutions]
  exact isPart.unique resolutionTable fun _ => rfl

theorem Part.references : BTreeMap.Restricts (fun key => key.any ∈ mine)
    (factsOf whole).references (factsOf part).references := by
  rw [factsOf_references, factsOf_references]
  exact isPart.unique referenceTable fun _ => rfl

theorem Part.contextOwners : BTreeMap.Restricts (fun key => key.any ∈ mine)
    (factsOf whole).contextOwners (factsOf part).contextOwners := by
  have grouped : ∀ events, (factsOf events).contextOwners =
      (BTreeMap.group (events.flatMap ownerEntries)).map List.toFinset := by
    intro events
    rw [factsOf, collectDefinitions_eq]
    rfl
  rw [grouped, grouped]
  refine (isPart.group ?_).map List.toFinset
  rintro event ⟨contextId, spaceId⟩ isEntry
  exact List.mem_cons_of_mem _ (mentionedContext_mentioned (mem_ownerEntries.mp isEntry).1)

end Tables

section Phases

include isPart

/-- Whether an event of the part is invalid does not depend on the rest. -/
theorem Part.live {eventId : EventId} (isMine : eventId.any ∈ mine) :
    eventId ∉ (factsOf part).invalidEventIds ↔ eventId ∉ (factsOf whole).invalidEventIds :=
  not_congr (isPart.invalid isMine)

/-! ### Spaces and Intents -/

theorem Part.validSpaces {spaceId : SpaceId} :
    spaceId ∈ validSpaces (factsOf part) ↔
      spaceId ∈ SharedContext.validSpaces (factsOf whole) ∧ spaceId.any ∈ mine := by
  apply BTreeMap.Restricts.mem_keys
  apply isPart.spaceCreations.filter
  intro key node found isMine
  obtain ⟨rfl, isEvent, -⟩ := spaceCreations_iff.mp found
  apply isPart.live
  apply (isPart.coherent node.creation isEvent _ _).mp isMine
  simp [ReducerEvent.identifiers, IntentNode.creation, EventPayload.identifiers]

theorem Part.intentNode {key : RevisionId} {node : IntentNode}
    (found : (factsOf whole).intents.get? key = some node) :
    (key.any ∈ mine ↔ node.eventId.any ∈ mine) ∧
      (node.spaceId.any ∈ mine ↔ node.eventId.any ∈ mine) := by
  obtain ⟨rfl, isEvent | isEvent⟩ := intentNode_event found
  · constructor
    · apply isPart.coherent node.creation isEvent
      simp [ReducerEvent.identifiers, IntentNode.creation, EventPayload.identifiers]
    · apply isPart.coherent node.creation isEvent
      simp [ReducerEvent.identifiers, IntentNode.creation, EventPayload.identifiers]
  · constructor
    · apply isPart.coherent node.addition isEvent
      simp [ReducerEvent.identifiers, IntentNode.addition, EventPayload.identifiers]
    · apply isPart.coherent node.addition isEvent
      simp [ReducerEvent.identifiers, IntentNode.addition, EventPayload.identifiers]

theorem Part.intentCandidates {spaceId : SpaceId} (isMine : spaceId.any ∈ mine) :
    intentCandidates (factsOf part) spaceId =
      SharedContext.intentCandidates (factsOf whole) spaceId := by
  apply isPart.intents.filter_eq
  · rintro key node found ⟨rfl, -⟩
    obtain ⟨keyMine, spaceMine⟩ := isPart.intentNode found
    exact keyMine.mpr (spaceMine.mp isMine)
  · intro key node found keyMine
    rw [isPart.live ((isPart.intentNode found).1.mp keyMine)]

theorem Part.reducedIntents {spaceId : SpaceId} (isMine : spaceId.any ∈ mine) :
    reducedIntents (factsOf part) spaceId =
      SharedContext.reducedIntents (factsOf whole) spaceId := by
  rw [SharedContext.reducedIntents, isPart.intentCandidates isMine]
  rfl

/-! ### Context revisions -/

/-- The Spaces that refer to a Context of the part belong to the part. -/
theorem Part.owner {contextId : ContextId} {owners : Finset SpaceId} {spaceId : SpaceId}
    (found : (factsOf whole).contextOwners.get? contextId = some owners)
    (isOwner : spaceId ∈ owners) : spaceId.any ∈ mine ↔ contextId.any ∈ mine := by
  obtain ⟨-, members⟩ := contextOwners_iff.mp found
  obtain ⟨event, isEvent, isContext, isSpace⟩ := (members spaceId).mp isOwner
  have ofContext := isPart.coherent event isEvent contextId.any
    (List.mem_cons_of_mem _ (mentionedContext_mentioned isContext))
  have ofSpace := isPart.coherent event isEvent spaceId.any
    (List.mem_cons_of_mem _ (referencedSpace_mentioned isSpace))
  rw [ofContext, ofSpace]

theorem Part.ownedContexts {key : ContextKey} :
    key ∈ ownedContexts (factsOf part) ↔
      key ∈ SharedContext.ownedContexts (factsOf whole) ∧ key.2.any ∈ mine := by
  rw [mem_ownedContexts, mem_ownedContexts, isPart.contextOwners key.2, isPart.validSpaces]
  constructor
  · rintro ⟨⟨found, isMine⟩, isSpace, -⟩
    exact ⟨⟨found, isSpace⟩, isMine⟩
  · rintro ⟨⟨found, isSpace⟩, isMine⟩
    refine ⟨⟨found, isMine⟩, isSpace, ?_⟩
    exact (isPart.owner found (Finset.mem_singleton_self key.1)).mpr isMine

theorem Part.contextNode {key : RevisionId} {node : ContextNode}
    (found : (factsOf whole).contexts.get? key = some node) :
    (key.any ∈ mine ↔ node.eventId.any ∈ mine) ∧
      (node.contextId.any ∈ mine ↔ node.eventId.any ∈ mine) ∧
      ∀ relation ∈ node.revision.relations,
        relation.targetContextId.any ∈ mine ↔ node.eventId.any ∈ mine := by
  obtain ⟨rfl, isEvent⟩ := contextNode_event found
  refine ⟨?_, ?_, fun relation isRelation => ?_⟩ <;> apply isPart.coherent node.event isEvent
  · simp [ReducerEvent.identifiers, ContextNode.event, EventPayload.identifiers]
  · simp [ReducerEvent.identifiers, ContextNode.event, EventPayload.identifiers]
  · simp only [ReducerEvent.identifiers, ContextNode.event, EventPayload.identifiers,
      relationIdentifiers]
    apply List.mem_cons_of_mem
    apply List.mem_append_left
    apply List.mem_append_right
    exact List.mem_map.mpr ⟨relation, isRelation, rfl⟩

theorem Part.contextCandidates {key : ContextKey} (isMine : key.2.any ∈ mine) :
    contextCandidates (factsOf part) key =
      SharedContext.contextCandidates (factsOf whole) key := by
  apply isPart.contexts.filter_eq
  · rintro revisionId node found ⟨-, isContext, -⟩
    obtain ⟨keyMine, contextMine, -⟩ := isPart.contextNode found
    rw [← isContext] at isMine
    exact keyMine.mpr (contextMine.mp isMine)
  · intro revisionId node found keyMine
    rw [isPart.live ((isPart.contextNode found).1.mp keyMine)]

theorem Part.reducedRevisions {key : ContextKey} (isMine : key.2.any ∈ mine) :
    reducedRevisions (factsOf part) key =
      SharedContext.reducedRevisions (factsOf whole) key := by
  rw [SharedContext.reducedRevisions, isPart.contextCandidates isMine]
  rfl

theorem Part.reducedContexts : BTreeMap.Restricts (fun key : ContextKey => key.2.any ∈ mine)
    (reducedContexts (factsOf whole)) (SharedContext.reducedContexts (factsOf part)) := by
  intro key revisions
  simp only [SharedContext.reducedContexts, BTreeMap.get?_ofKeys_eq_some, isPart.ownedContexts]
  constructor
  · rintro ⟨⟨owned, isMine⟩, found⟩
    rw [isPart.reducedRevisions isMine] at found
    exact ⟨⟨owned, found⟩, isMine⟩
  · rintro ⟨⟨owned, found⟩, isMine⟩
    rw [← isPart.reducedRevisions isMine] at found
    exact ⟨⟨owned, isMine⟩, found⟩

/-! ### The relation closure -/

omit isPart in
theorem invalidRelation_congr {first second : Finset ContextId} {contextId : ContextId}
    {relations : List ContextRelation}
    (same : ∀ relation ∈ relations,
      relation.targetContextId ∈ first ↔ relation.targetContextId ∈ second) :
    invalidRelation first contextId relations = invalidRelation second contextId relations := by
  induction relations with
  | nil => rfl
  | cons relation relations ih =>
      have rest := ih fun other member => same other (List.mem_cons_of_mem _ member)
      have here := same relation List.mem_cons_self
      simp only [invalidRelation, List.findSome?_cons] at rest ⊢
      rw [rest]
      simp only [here]

theorem Part.revision? {key : ContextKey} {revisionId : RevisionId} {node : ContextNode} :
    revision? (SharedContext.reducedContexts (factsOf part)) key revisionId = some node ↔
      SharedContext.revision? (SharedContext.reducedContexts (factsOf whole)) key revisionId =
        some node ∧ key.2.any ∈ mine := by
  simp only [revision?_eq_some, isPart.reducedContexts key]
  constructor
  · rintro ⟨revisions, ⟨found, isMine⟩, lookup⟩
    exact ⟨⟨revisions, found, lookup⟩, isMine⟩
  · rintro ⟨⟨revisions, found, lookup⟩, isMine⟩
    exact ⟨revisions, ⟨found, isMine⟩, lookup⟩

theorem Part.reducedNode {key : ContextKey} {revisionId : RevisionId} {node : ContextNode}
    (found : SharedContext.revision? (SharedContext.reducedContexts (factsOf whole)) key
      revisionId = some node) :
    (node.eventId.any ∈ mine ↔ key.2.any ∈ mine) ∧
      ∀ relation ∈ node.revision.relations,
        relation.targetContextId.any ∈ mine ↔ key.2.any ∈ mine := by
  obtain ⟨-, candidate, -⟩ := revision?_reducedContexts.mp found
  obtain ⟨isContext, -, contextEq, -⟩ := BTreeMap.get?_filter_eq_some.mp candidate
  obtain ⟨-, contextMine, targets⟩ := isPart.contextNode isContext
  rw [contextEq] at contextMine
  exact ⟨contextMine.symm, fun relation isRelation =>
    (targets relation isRelation).trans contextMine.symm⟩

theorem Part.relationFault [DecidablePred fun item : ContextKey × RevisionId =>
      item.1.2.any ∈ mine] (taken : Finset (ContextKey × RevisionId)) {key : ContextKey}
    {revisionId : RevisionId} {node : ContextNode}
    (found : SharedContext.revision? (SharedContext.reducedContexts (factsOf whole)) key
      revisionId = some node) (isMine : key.2.any ∈ mine) :
    relationFault (SharedContext.reducedContexts (factsOf part))
        (taken.filter fun item => item.1.2.any ∈ mine) key node =
      SharedContext.relationFault (SharedContext.reducedContexts (factsOf whole)) taken key
        node := by
  have alive : ∀ relation ∈ node.revision.relations,
      relation.targetContextId ∈ existingContexts (SharedContext.reducedContexts (factsOf part))
          (taken.filter fun item => item.1.2.any ∈ mine) ↔
        relation.targetContextId ∈
          existingContexts (SharedContext.reducedContexts (factsOf whole)) taken := by
    intro relation isRelation
    have targetMine := ((isPart.reducedNode found).2 relation isRelation).mpr isMine
    simp only [mem_existingContexts, isPart.revision?, Finset.mem_filter, targetMine, and_true]
  have parents : (∃ parent ∈ node.parents,
      (key, parent) ∈ taken.filter fun item => item.1.2.any ∈ mine) ↔
        ∃ parent ∈ node.parents, (key, parent) ∈ taken := by
    simp only [Finset.mem_filter, isMine, and_true]
  simp only [SharedContext.relationFault, invalidRelation_congr alive, parents]

theorem Part.relationDiagnostic [DecidablePred fun item : ContextKey × RevisionId =>
      item.1.2.any ∈ mine] (taken : Finset (ContextKey × RevisionId))
    {item : ContextKey × RevisionId}
    (member : item ∈ revisionKeys (SharedContext.reducedContexts (factsOf whole)))
    (isMine : item.1.2.any ∈ mine) :
    relationDiagnostic (SharedContext.reducedContexts (factsOf part))
        (taken.filter fun item => item.1.2.any ∈ mine) item =
      SharedContext.relationDiagnostic (SharedContext.reducedContexts (factsOf whole)) taken
        item := by
  obtain ⟨node, found⟩ := mem_revisionKeys.mp member
  obtain ⟨revisions, atKey, lookup⟩ := revision?_eq_some.mp found
  have partKey := (isPart.reducedContexts item.1 revisions).mpr ⟨atKey, isMine⟩
  simp only [SharedContext.relationDiagnostic, atKey, partKey, lookup, Option.bind_some,
    isPart.relationFault taken found isMine]

/-- A diagnostic that names an event of a class. -/
def ReducerDiagnostic.Concerns (mine : Set AnyId) (diagnostic : ReducerDiagnostic) : Prop :=
  ∃ eventId ∈ diagnostic.eventIds, eventId.any ∈ mine

open Classical in
/-- The closure of a part is the part of the closure, round by round. -/
theorem Part.relationClosure :
    relationClosure (SharedContext.reducedContexts (factsOf part)) =
      ((SharedContext.relationClosure (SharedContext.reducedContexts (factsOf whole))).1.filter
          fun item => item.1.2.any ∈ mine,
        (SharedContext.relationClosure (SharedContext.reducedContexts (factsOf whole))).2.filter
          (ReducerDiagnostic.Concerns mine)) := by
  have isPartKeys : revisionKeys (SharedContext.reducedContexts (factsOf part)) =
      (revisionKeys (SharedContext.reducedContexts (factsOf whole))).filter
        fun item => item.1.2.any ∈ mine := by
    ext item
    rw [Finset.mem_filter, mem_revisionKeys, mem_revisionKeys]
    simp only [isPart.revision?, exists_and_right]
  have restricted := Saturation.saturate_restrict (fun item => item.1.2.any ∈ mine)
    (ReducerDiagnostic.Concerns mine) isPartKeys
    (fun taken item member isMine => isPart.relationDiagnostic taken member isMine)
    (fun taken item _ diagnostic labelled => by
      obtain ⟨node, found, -, eventIdsEq⟩ := relationDiagnostic_eq_some labelled
      rw [ReducerDiagnostic.Concerns, eventIdsEq]
      simp only [Finset.mem_singleton, exists_eq_left]
      exact (isPart.reducedNode found).1) ∅ ∅
  rw [Finset.filter_empty, Finset.filter_empty] at restricted
  exact restricted

theorem Part.validContexts : BTreeMap.Restricts (fun key : ContextKey => key.2.any ∈ mine)
    (validContexts (factsOf whole)) (SharedContext.validContexts (factsOf part)) := by
  apply isPart.reducedContexts.filterMap
  intro key revisions found isMine
  rw [isPart.relationClosure]
  simp only [Finset.mem_filter, isMine, and_true]

theorem Part.contextHeads : BTreeMap.Restricts (fun key : ContextKey => key.2.any ∈ mine)
    (contextHeads (factsOf whole)) (SharedContext.contextHeads (factsOf part)) :=
  isPart.validContexts.map fun revisions =>
    heads (dagOf revisions ContextNode.eventId ContextNode.parents) revisions.keys

theorem Part.validRevisions {key : ContextKey} (isMine : key.2.any ∈ mine) :
    validRevisions (factsOf part) key = SharedContext.validRevisions (factsOf whole) key := by
  rw [SharedContext.validRevisions, isPart.validContexts.get?_eq isMine]
  rfl

/-! ### Reviews and publications -/

theorem Part.reviewNode {key : ReviewId} {node : ReviewNode}
    (found : (factsOf whole).reviews.get? key = some node) :
    (key.any ∈ mine ↔ node.eventId.any ∈ mine) ∧
      (node.contextId.any ∈ mine ↔ node.eventId.any ∈ mine) := by
  obtain ⟨rfl, isEvent⟩ := reviewNode_event found
  constructor <;> apply isPart.coherent node.event isEvent <;>
    simp [ReducerEvent.identifiers, ReviewNode.event, EventPayload.identifiers]

theorem Part.reviewCandidates : BTreeMap.Restricts (fun key => key.any ∈ mine)
    (reviewCandidates (factsOf whole)) (SharedContext.reviewCandidates (factsOf part)) :=
  isPart.reviews.filter fun _ _ found isMine => isPart.live ((isPart.reviewNode found).1.mp isMine)

theorem Part.reviewTarget {key : ReviewId} {node : ReviewNode}
    (found : (SharedContext.reviewCandidates (factsOf whole)).get? key = some node)
    (isMine : key.any ∈ mine) :
    reviewTargetIsValid (factsOf part) node ↔ reviewTargetIsValid (factsOf whole) node := by
  have isReview := (BTreeMap.get?_filter_eq_some.mp found).1
  obtain ⟨keyMine, contextMine⟩ := isPart.reviewNode isReview
  have nodeMine : node.key.2.any ∈ mine := contextMine.mpr (keyMine.mp isMine)
  rw [reviewTargetIsValid, reviewTargetIsValid, isPart.validRevisions nodeMine]

theorem Part.reviewNodes : BTreeMap.Restricts (fun key => key.any ∈ mine)
    (reviewNodes (factsOf whole)) (SharedContext.reviewNodes (factsOf part)) :=
  isPart.reviewCandidates.filter fun _ _ found isMine => isPart.reviewTarget found isMine

theorem Part.validReviews {key : ContextKey} (isMine : key.2.any ∈ mine) :
    validReviews (factsOf part) key = SharedContext.validReviews (factsOf whole) key := by
  have selected : ((SharedContext.reviewNodes (factsOf part)).filter fun _ node => node.key = key) =
      (SharedContext.reviewNodes (factsOf whole)).filter fun _ node => node.key = key := by
    apply isPart.reviewNodes.filter_eq
    · rintro reviewId node found rfl
      obtain ⟨keyMine, contextMine⟩ := isPart.reviewNode (reviewNodes_agrees found).1
      exact keyMine.mpr (contextMine.mp isMine)
    · exact fun _ _ _ _ => Iff.rfl
  rw [SharedContext.validReviews, SharedContext.validReviews, selected]

theorem Part.reviewByEvent {eventId : EventId} (isMine : eventId.any ∈ mine) :
    (reviewByEvent (factsOf part)).get? eventId =
      (SharedContext.reviewByEvent (factsOf whole)).get? eventId := by
  apply Option.ext
  intro node
  rw [reviewByEvent_iff, reviewByEvent_iff, isPart.reviewNodes]
  refine and_congr_right fun sameEvent => and_iff_left_of_imp fun found => ?_
  obtain ⟨keyMine, -⟩ := isPart.reviewNode (reviewNodes_agrees found).1
  rw [← sameEvent] at isMine
  exact keyMine.mpr isMine

theorem Part.publicationNode {key : PublicationId} {node : PublicationNode}
    (found : (factsOf whole).publications.get? key = some node) :
    (key.any ∈ mine ↔ node.eventId.any ∈ mine) ∧
      (node.contextId.any ∈ mine ↔ node.eventId.any ∈ mine) ∧
      ∀ eventId ∈ node.publication.reviewEventIds,
        eventId.any ∈ mine ↔ node.eventId.any ∈ mine := by
  obtain ⟨rfl, isEvent⟩ := publicationNode_event found
  refine ⟨?_, ?_, fun eventId isReview => ?_⟩ <;> apply isPart.coherent node.event isEvent
  · simp [ReducerEvent.identifiers, PublicationNode.event, EventPayload.identifiers]
  · simp [ReducerEvent.identifiers, PublicationNode.event, EventPayload.identifiers]
  · apply List.mem_cons_of_mem
    apply List.mem_append_right
    exact List.mem_map.mpr ⟨eventId, isReview, rfl⟩

theorem Part.livePublications : BTreeMap.Restricts (fun key => key.any ∈ mine)
    (livePublications (factsOf whole)) (SharedContext.livePublications (factsOf part)) :=
  isPart.publications.filter fun _ _ found isMine =>
    isPart.live ((isPart.publicationNode found).1.mp isMine)

theorem Part.publicationReferences {key : PublicationId} {node : PublicationNode}
    (found : (SharedContext.livePublications (factsOf whole)).get? key = some node)
    (isMine : key.any ∈ mine) :
    publicationReferencesAreValid (factsOf part) node ↔
      publicationReferencesAreValid (factsOf whole) node := by
  have isPublication := (BTreeMap.get?_filter_eq_some.mp found).1
  obtain ⟨keyMine, contextMine, reviewsMine⟩ := isPart.publicationNode isPublication
  have nodeMine : node.key.2.any ∈ mine := contextMine.mpr (keyMine.mp isMine)
  rw [publicationReferencesAreValid, publicationReferencesAreValid,
    isPart.validRevisions nodeMine]
  refine and_congr_right fun _ => forall₂_congr fun eventId isReview => ?_
  rw [isPart.reviewByEvent ((reviewsMine eventId isReview).mpr (keyMine.mp isMine))]

theorem Part.publicationCandidates {key : ContextKey} (isMine : key.2.any ∈ mine) :
    publicationCandidates (factsOf part) key =
      SharedContext.publicationCandidates (factsOf whole) key := by
  apply isPart.livePublications.filter_eq
  · rintro publicationId node found ⟨rfl, -⟩
    obtain ⟨keyMine, contextMine, -⟩ :=
      isPart.publicationNode (BTreeMap.get?_filter_eq_some.mp found).1
    exact keyMine.mpr (contextMine.mp isMine)
  · intro publicationId node found keyMine
    rw [isPart.publicationReferences found keyMine]

theorem Part.reducedPublications {key : ContextKey} (isMine : key.2.any ∈ mine) :
    reducedPublications (factsOf part) key =
      SharedContext.reducedPublications (factsOf whole) key := by
  rw [SharedContext.reducedPublications, isPart.publicationCandidates isMine]
  rfl

/-! ### Associations -/

theorem Part.associationNode {key : SpaceAssociationId} {node : ContextSpaceAssociationNode}
    (found : (factsOf whole).associations.get? key = some node) :
    (key.any ∈ mine ↔ node.eventId.any ∈ mine) ∧
      ∀ id ∈ node.event.identifiers, id ∈ mine ↔ node.eventId.any ∈ mine := by
  obtain ⟨rfl, isEvent⟩ := associationNode_event found
  refine ⟨isPart.coherent node.event isEvent _ ?_, isPart.coherent node.event isEvent⟩
  simp [ReducerEvent.identifiers, ContextSpaceAssociationNode.event, EventPayload.identifiers]

theorem Part.owner? {contextId : ContextId} (isMine : contextId.any ∈ mine) :
    owner? (factsOf part) contextId = SharedContext.owner? (factsOf whole) contextId := by
  rw [SharedContext.owner?, SharedContext.owner?, isPart.contextOwners.get?_eq isMine]

theorem Part.candidateNode {key : CandidateId} {node : CandidateNode}
    (found : (factsOf whole).candidates.get? key = some node) :
    (key.any ∈ mine ↔ node.eventId.any ∈ mine) ∧
      (node.candidate.submissionId.any ∈ mine ↔ node.eventId.any ∈ mine) := by
  obtain ⟨rfl, isEvent⟩ := candidateNode_event found
  constructor <;> apply isPart.coherent node.event isEvent <;>
    simp [ReducerEvent.identifiers, CandidateNode.event, EventPayload.identifiers]

theorem Part.originCandidate {origin : ContextSpaceAssociationOrigin}
    (isMine : ∀ id ∈ origin.identifiers, id ∈ mine) :
    originCandidateExists (factsOf part) origin ↔ originCandidateExists (factsOf whole) origin := by
  cases origin with
  | correction => exact Iff.rfl
  | candidateConfirmation candidateId =>
      have candidateMine := isMine candidateId.any List.mem_cons_self
      simp only [originCandidateExists, isPart.candidates.get?_eq candidateMine]
      refine exists_congr fun node => and_congr_right fun found => ?_
      obtain ⟨keyMine, submissionMine⟩ := isPart.candidateNode found
      have eventMine := keyMine.mp candidateMine
      rw [isPart.live eventMine, isPart.submissions.get?_eq (submissionMine.mpr eventMine)]

theorem Part.associationReferences {key : SpaceAssociationId} {node : ContextSpaceAssociationNode}
    (found : (factsOf whole).associations.get? key = some node) (isMine : key.any ∈ mine) :
    associationReferencesAreValid (factsOf part) node ↔
      associationReferencesAreValid (factsOf whole) node := by
  obtain ⟨keyMine, coherent⟩ := isPart.associationNode found
  have allMine : ∀ id ∈ node.event.identifiers, id ∈ mine := fun id member =>
    (coherent id member).mpr (keyMine.mp isMine)
  have contextMine : node.contextId.any ∈ mine := by
    apply allMine
    simp [ReducerEvent.identifiers, ContextSpaceAssociationNode.event, EventPayload.identifiers,
      ContextSpaceAssociationNode.contextId]
  have primaryMine : node.association.primarySpaceId.any ∈ mine := by
    apply allMine
    simp [ReducerEvent.identifiers, ContextSpaceAssociationNode.event, EventPayload.identifiers]
  have relatedMine : ∀ spaceId ∈ node.association.relatedSpaceIds, spaceId.any ∈ mine := by
    intro spaceId isRelated
    apply allMine
    simp [ReducerEvent.identifiers, ContextSpaceAssociationNode.event, EventPayload.identifiers,
      isRelated]
  have originMine : ∀ id ∈ node.association.origin.identifiers, id ∈ mine := by
    intro id isOrigin
    apply allMine
    apply List.mem_cons_of_mem
    exact List.mem_append_right _ isOrigin
  have spaces : (∀ spaceId ∈ node.association.relatedSpaceIds,
        spaceId ∈ SharedContext.validSpaces (factsOf part)) ↔
      ∀ spaceId ∈ node.association.relatedSpaceIds,
        spaceId ∈ SharedContext.validSpaces (factsOf whole) :=
    forall₂_congr fun spaceId isRelated => by
      rw [isPart.validSpaces, and_iff_left (relatedMine spaceId isRelated)]
  rw [associationReferencesAreValid, associationReferencesAreValid, isPart.validSpaces,
    and_iff_left primaryMine, spaces, isPart.owner? contextMine, isPart.originCandidate originMine]
  simp only [isPart.validContexts.mem_keys, contextMine, and_true]

theorem Part.associationsOf {contextId : ContextId} (isMine : contextId.any ∈ mine) :
    associationsOf (factsOf part) contextId =
      SharedContext.associationsOf (factsOf whole) contextId := by
  apply isPart.associations.filter_eq
  · rintro associationId node found ⟨rfl, -⟩
    obtain ⟨keyMine, coherent⟩ := isPart.associationNode found
    apply keyMine.mpr
    apply (coherent node.contextId.any _).mp isMine
    simp [ReducerEvent.identifiers, ContextSpaceAssociationNode.event, EventPayload.identifiers,
      ContextSpaceAssociationNode.contextId]
  · intro associationId node found keyMine
    rw [isPart.live ((isPart.associationNode found).1.mp keyMine)]

theorem Part.associationChecks {contextId : ContextId} (isMine : contextId.any ∈ mine)
    {key : SpaceAssociationId} {node : ContextSpaceAssociationNode}
    (found : (SharedContext.associationsOf (factsOf whole) contextId).get? key = some node) :
    associationReferencesAreValid (factsOf part) node ↔
      associationReferencesAreValid (factsOf whole) node := by
  rw [← isPart.associationsOf isMine] at found
  obtain ⟨inPart, -⟩ := BTreeMap.get?_filter_eq_some.mp found
  obtain ⟨inWhole, keyMine⟩ := (isPart.associations key node).mp inPart
  exact isPart.associationReferences inWhole keyMine

theorem Part.reducedAssociations {contextId : ContextId} (isMine : contextId.any ∈ mine) :
    reducedAssociations (factsOf part) contextId =
      SharedContext.reducedAssociations (factsOf whole) contextId := by
  have candidates : associationCandidates (factsOf part) contextId =
      associationCandidates (factsOf whole) contextId := by
    ext1 key
    apply Option.ext
    intro node
    simp only [associationCandidates, BTreeMap.get?_filter_eq_some, isPart.associationsOf isMine]
    exact and_congr_right fun found => isPart.associationChecks isMine found
  rw [SharedContext.reducedAssociations, candidates]
  rfl

theorem Part.contextSpaceAssociations : BTreeMap.Restricts (fun key => key.any ∈ mine)
    (contextSpaceAssociations (factsOf whole))
    (SharedContext.contextSpaceAssociations (factsOf part)) := by
  apply isPart.associations.filterMap
  intro key node found isMine
  obtain ⟨keyMine, coherent⟩ := isPart.associationNode found
  have contextMine : node.contextId.any ∈ mine := by
    apply (coherent node.contextId.any _).mpr (keyMine.mp isMine)
    simp [ReducerEvent.identifiers, ContextSpaceAssociationNode.event, EventPayload.identifiers,
      ContextSpaceAssociationNode.contextId]
  rw [isPart.reducedAssociations contextMine]

end Phases

end SharedContext
