import SharedContext.Library.Restriction
import SharedContext.Reducer.Stability

/-!
# Independent parts of a history

A part of an event list is independent of the rest when no identifier occurs
on both sides.  Every table of definitions then splits along the identifiers
of the part, and so does the set of invalid events.
-/

namespace SharedContext

/-! ### The identifiers of an event -/

/-- An identifier of any kind. -/
abbrev AnyId := Sigma OpaqueId

abbrev OpaqueId.any {kind : IdKind} (id : OpaqueId kind) : AnyId := ⟨kind, id⟩

def relationIdentifiers (relations : List ContextRelation) : List AnyId :=
  relations.map fun relation => relation.targetContextId.any

def CandidateConfirmationCausalRefs.identifiers (refs : CandidateConfirmationCausalRefs) :
    List AnyId :=
  ([refs.contextRevisionEventId, refs.spaceAssociationEventId, refs.publicationEventId] ++
    refs.spaceCreatedEventId.toList ++ refs.engineeringReferenceEventIds).map OpaqueId.any

def CandidateConfirmation.identifiers (confirmation : CandidateConfirmation) : List AnyId :=
  [confirmation.confirmationId.any, confirmation.candidateId.any, confirmation.submissionId.any,
    confirmation.resultContextId.any, confirmation.resultRevisionId.any,
    confirmation.primarySpaceId.any, confirmation.spaceAssociationId.any,
    confirmation.publicationId.any] ++
  confirmation.relatedSpaceIds.map OpaqueId.any ++
  confirmation.createdSpaceId.toList.map OpaqueId.any ++
  relationIdentifiers (confirmation.edits.relations.getD []) ++
  confirmation.causalRefs.identifiers

def ContextSpaceAssociationOrigin.identifiers : ContextSpaceAssociationOrigin → List AnyId
  | .candidateConfirmation candidateId => [candidateId.any]
  | .correction => []

def EventPayload.identifiers : EventPayload → List AnyId
  | .contextCandidateCreated candidate =>
      [candidate.candidateId.any, candidate.submissionId.any] ++
        relationIdentifiers candidate.content.relations
  | .candidateConfirmed confirmation => confirmation.identifiers
  | .spaceCreated spaceId revision | .spaceIntentRevisionAdded spaceId revision =>
      [spaceId.any, revision.revisionId.any] ++ revision.parentRevisionIds.map OpaqueId.any
  | .contextRevisionAdded spaceId contextId revision =>
      [spaceId.any, contextId.any, revision.revisionId.any] ++
        revision.parentRevisionIds.map OpaqueId.any ++ relationIdentifiers revision.relations ++
        revision.evidence.map fun evidence => evidence.evidenceId.any
  | .contextReviewed spaceId contextId review =>
      [spaceId.any, contextId.any, review.reviewId.any, review.revisionId.any]
  | .contextPublicationChanged spaceId contextId publication =>
      [spaceId.any, contextId.any, publication.publicationId.any, publication.revisionId.any] ++
        publication.previousPublicationIds.map OpaqueId.any ++
        publication.reviewEventIds.map OpaqueId.any
  | .contextSpaceAssociationChanged association =>
      [association.associationId.any, association.contextId.any,
        association.primarySpaceId.any] ++
      association.relatedSpaceIds.map OpaqueId.any ++
      association.previousAssociationIds.map OpaqueId.any ++ association.origin.identifiers
  | .semanticConflictOpened spaceId conflict =>
      [spaceId.any, conflict.conflictId.any] ++ conflict.participants.flatMap fun participant =>
        [participant.contextId.any, participant.revisionId.any, participant.publicationId.any]
  | .semanticConflictResolutionAdded spaceId conflictId resolution =>
      [spaceId.any, conflictId.any, resolution.resolutionId.any] ++
        resolution.previousResolutionIds.map OpaqueId.any ++
        resolution.relatedPublicationIds.map OpaqueId.any ++
        resolution.results.flatMap fun result => [result.contextId.any, result.revisionId.any]
  | .engineeringReferenceRecorded contextId revisionId reference =>
      [contextId.any, revisionId.any, reference.referenceId.any]

def ReducerEvent.identifiers (event : ReducerEvent) : List AnyId :=
  event.eventId.any :: event.payload.identifiers

/-- The identifiers that occur in a list of events. -/
def mentioned (events : List ReducerEvent) : List AnyId :=
  events.flatMap ReducerEvent.identifiers

def Identity.id : Identity → AnyId
  | .event id => id.any
  | .candidate id | .confirmedCandidate id => id.any
  | .submission id => id.any
  | .confirmation id => id.any
  | .association id => id.any
  | .spaceCreation id => id.any
  | .revision id => id.any
  | .evidence id => id.any
  | .review id => id.any
  | .publication id => id.any
  | .conflict id => id.any
  | .resolution id => id.any
  | .reference id => id.any

theorem identity_mentioned {event : ReducerEvent} {identity : Identity}
    (member : identity ∈ event.identities) : identity.id ∈ event.identifiers := by
  obtain ⟨eventId, payload⟩ := event
  simp only [ReducerEvent.identities, List.mem_cons] at member
  rcases member with rfl | member
  · exact List.mem_cons_self
  · apply List.mem_cons_of_mem
    cases payload with
    | contextRevisionAdded spaceId contextId revision =>
        simp only [ReducerEvent.entityIdentities, List.mem_cons, List.mem_map] at member
        rcases member with rfl | ⟨evidence, isEvidence, rfl⟩
        · simp [EventPayload.identifiers, Identity.id]
        · apply List.mem_append_right
          exact List.mem_map.mpr ⟨evidence, isEvidence, rfl⟩
    | _ =>
        simp only [ReducerEvent.entityIdentities, List.mem_cons, List.not_mem_nil,
          or_false] at member
        rcases member with rfl | rfl <;>
          simp [EventPayload.identifiers, CandidateConfirmation.identifiers, Identity.id]

theorem mentionedContext_mentioned {event : ReducerEvent} {contextId : ContextId}
    (member : contextId ∈ event.mentionedContexts) :
    contextId.any ∈ event.payload.identifiers := by
  obtain ⟨eventId, payload⟩ := event
  cases payload <;> simp [ReducerEvent.mentionedContexts] at member
  case contextRevisionAdded | contextReviewed | contextPublicationChanged =>
      simp [EventPayload.identifiers, member]
  case semanticConflictOpened spaceId conflict =>
      obtain ⟨participant, isParticipant, rfl⟩ := member
      apply List.mem_append_right
      exact List.mem_flatMap.mpr ⟨participant, isParticipant, List.mem_cons_self⟩
  case semanticConflictResolutionAdded spaceId conflictId resolution =>
      obtain ⟨result, isResult, rfl⟩ := member
      apply List.mem_append_right
      exact List.mem_flatMap.mpr ⟨result, isResult, List.mem_cons_self⟩

theorem referencedSpace_mentioned {event : ReducerEvent} {spaceId : SpaceId}
    (member : spaceId ∈ event.referencedSpaces) :
    spaceId.any ∈ event.payload.identifiers := by
  obtain ⟨eventId, payload⟩ := event
  cases payload <;> simp [ReducerEvent.referencedSpaces] at member
  case candidateConfirmed confirmation =>
      rcases member with rfl | isRelated | isCreated
      · simp [EventPayload.identifiers, CandidateConfirmation.identifiers]
      · simp [EventPayload.identifiers, CandidateConfirmation.identifiers, isRelated]
      · simp [EventPayload.identifiers, CandidateConfirmation.identifiers, isCreated]
  case contextSpaceAssociationChanged association =>
      rcases member with rfl | isRelated
      · simp [EventPayload.identifiers]
      · simp [EventPayload.identifiers, isRelated]
  all_goals simp [EventPayload.identifiers, member]

/-! ### Parts of a list -/

/-- The events of a list that mention a class of identifiers, where each event
mentions only identifiers of the class or none. -/
structure Part (mine : Set AnyId) (whole part : List ReducerEvent) : Prop where
  coherent : ∀ event ∈ whole, ∀ id ∈ event.identifiers, id ∈ mine ↔ event.eventId.any ∈ mine
  selected : ∃ keep : ReducerEvent → Bool, whole.filter keep = part ∧
    ∀ event ∈ whole, keep event = true ↔ event.eventId.any ∈ mine

variable {mine : Set AnyId} {whole part : List ReducerEvent}

theorem Part.mem (isPart : Part mine whole part) {event : ReducerEvent} :
    event ∈ part ↔ event ∈ whole ∧ event.eventId.any ∈ mine := by
  obtain ⟨keep, rfl, keeps⟩ := isPart.selected
  rw [List.mem_filter]
  exact and_congr_right (keeps event)

theorem listed_flatMap_filter {κ ν α : Type} [DecidableEq κ] (entries : α → List (κ × ν))
    (key : κ) (keep : α → Bool) (items : List α)
    (silent : ∀ item ∈ items, keep item = false → BTreeMap.listed (entries item) key = []) :
    BTreeMap.listed ((items.filter keep).flatMap entries) key =
      BTreeMap.listed (items.flatMap entries) key := by
  have listedAppend : ∀ first second : List (κ × ν), BTreeMap.listed (first ++ second) key =
      BTreeMap.listed first key ++ BTreeMap.listed second key := by
    intro first second
    simp [BTreeMap.listed]
  induction items with
  | nil => rfl
  | cons item items ih =>
      have rest := ih fun other member => silent other (List.mem_cons_of_mem _ member)
      rw [List.flatMap_cons, listedAppend, ← rest]
      cases kept : keep item with
      | true => rw [List.filter_cons_of_pos kept, List.flatMap_cons, listedAppend]
      | false =>
          have dropped : ¬ keep item = true := by simp [kept]
          rw [List.filter_cons_of_neg dropped, silent item List.mem_cons_self kept, List.nil_append]

section Entries

variable {kind : IdKind} {ν : Type} {entries : ReducerEvent → List (OpaqueId kind × ν)}
  (mentions : ∀ event, ∀ entry ∈ entries event, entry.1.any ∈ event.identifiers)
include mentions

theorem Part.listed_eq (isPart : Part mine whole part) {key : OpaqueId kind}
    (isMine : key.any ∈ mine) :
    BTreeMap.listed (part.flatMap entries) key = BTreeMap.listed (whole.flatMap entries) key := by
  obtain ⟨keep, rfl, keeps⟩ := isPart.selected
  apply listed_flatMap_filter
  intro event isEvent dropped
  rw [BTreeMap.listed, List.map_eq_nil_iff, List.filter_eq_nil_iff]
  intro entry isEntry sameKey
  have keyEq : entry.1 = key := of_decide_eq_true sameKey
  have isMentioned := mentions event entry isEntry
  rw [keyEq] at isMentioned
  have isMineEvent := (isPart.coherent event isEvent _ isMentioned).mp isMine
  simp [(keeps event isEvent).mpr isMineEvent] at dropped

theorem Part.mine_of_listed (isPart : Part mine whole part) {key : OpaqueId kind} {value : ν}
    (isListed : value ∈ BTreeMap.listed (part.flatMap entries) key) : key.any ∈ mine := by
  simp only [BTreeMap.listed, List.mem_map, List.mem_filter, List.mem_flatMap] at isListed
  obtain ⟨entry, ⟨⟨event, isEvent, isEntry⟩, sameKey⟩, -⟩ := isListed
  have keyEq : entry.1 = key := of_decide_eq_true sameKey
  have isMentioned := mentions event entry isEntry
  rw [keyEq] at isMentioned
  obtain ⟨inWhole, isMine⟩ := isPart.mem.mp isEvent
  exact (isPart.coherent event inWhole _ isMentioned).mpr isMine

theorem Part.group (isPart : Part mine whole part) :
    BTreeMap.Restricts (fun key : OpaqueId kind => key.any ∈ mine)
      (BTreeMap.group (whole.flatMap entries)) (BTreeMap.group (part.flatMap entries)) := by
  intro key values
  rw [BTreeMap.get?_group_eq_some, BTreeMap.get?_group_eq_some]
  constructor
  · rintro ⟨notNil, isListed⟩
    obtain ⟨value, member⟩ := List.exists_mem_of_ne_nil values notNil
    have isMine := isPart.mine_of_listed mentions (isListed ▸ member)
    exact ⟨⟨notNil, isPart.listed_eq mentions isMine ▸ isListed⟩, isMine⟩
  · rintro ⟨⟨notNil, isListed⟩, isMine⟩
    exact ⟨notNil, (isPart.listed_eq mentions isMine).trans isListed⟩

end Entries

section Tables

variable {kind : IdKind} {ν : Type}

theorem Part.table (isPart : Part mine whole part)
    (table : DefinitionTable (OpaqueId kind) ν)
    (names : ∀ key, (table.identity key).id = key.any) :
    BTreeMap.Restricts (fun key : OpaqueId kind => key.any ∈ mine)
      (table.collect whole) (table.collect part) := by
  apply isPart.group
  intro event entry isEntry
  rw [← names entry.1]
  exact identity_mentioned (DefinitionTable.identity_mem isEntry)

theorem Part.unique (isPart : Part mine whole part)
    (table : DefinitionTable (OpaqueId kind) ν)
    (names : ∀ key, (table.identity key).id = key.any) :
    BTreeMap.Restricts (fun key : OpaqueId kind => key.any ∈ mine)
      (table.collect whole).unique (table.collect part).unique :=
  (isPart.table table names).filterMap fun _ _ _ _ => rfl

end Tables

/-! ### Invalid events -/

theorem Part.definitionCount (isPart : Part mine whole part) {identity : Identity}
    (isMine : identity.id ∈ mine) :
    definitionCount part identity = SharedContext.definitionCount whole identity := by
  have counted : ∀ events : List ReducerEvent, SharedContext.definitionCount events identity =
      (BTreeMap.listed (events.flatMap fun event =>
        event.identities.map fun other => (other, ())) identity).length := by
    intro events
    induction events with
    | nil => rfl
    | cons event events ih =>
        have here : (BTreeMap.listed (event.identities.map fun other => (other, ()))
            identity).length = event.identities.count identity := by
          rw [BTreeMap.listed, List.length_map, List.filter_map, List.length_map,
            List.count_eq_length_filter]
          rfl
        rw [DefinitionTable.definitionCount_cons, ih, List.flatMap_cons, ← here]
        simp [BTreeMap.listed]
  obtain ⟨keep, rfl, keeps⟩ := isPart.selected
  rw [counted, counted, listed_flatMap_filter]
  intro event isEvent dropped
  rw [BTreeMap.listed, List.map_eq_nil_iff, List.filter_eq_nil_iff]
  intro entry isEntry sameKey
  obtain ⟨other, isIdentity, rfl⟩ := List.mem_map.mp isEntry
  have keyEq : other = identity := of_decide_eq_true sameKey
  have isMentioned := identity_mentioned isIdentity
  rw [keyEq] at isMentioned
  have isMineEvent := (isPart.coherent event isEvent _ isMentioned).mp isMine
  simp [(keeps event isEvent).mpr isMineEvent] at dropped

theorem Part.invalid (isPart : Part mine whole part) {eventId : EventId}
    (isMine : eventId.any ∈ mine) :
    eventId ∈ (factsOf part).invalidEventIds ↔ eventId ∈ (factsOf whole).invalidEventIds := by
  have here := @mem_invalidEventIds part eventId
  have there := @mem_invalidEventIds whole eventId
  refine here.trans (Iff.trans ?_ there.symm)
  constructor
  · rintro ⟨event, isEvent, rfl, identity, member, invalidates, several⟩
    obtain ⟨inWhole, -⟩ := isPart.mem.mp isEvent
    have identityMine := (isPart.coherent event inWhole _ (identity_mentioned member)).mpr isMine
    rw [isPart.definitionCount identityMine] at several
    exact ⟨event, inWhole, rfl, identity, member, invalidates, several⟩
  · rintro ⟨event, inWhole, rfl, identity, member, invalidates, several⟩
    have identityMine := (isPart.coherent event inWhole _ (identity_mentioned member)).mpr isMine
    rw [← isPart.definitionCount identityMine] at several
    exact ⟨event, isPart.mem.mpr ⟨inWhole, isMine⟩, rfl, identity, member, invalidates, several⟩

end SharedContext
