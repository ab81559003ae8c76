import SharedContext.EventSchema.ConfirmationEvents
import SharedContext.Reducer.Appends
import SharedContext.Reducer.Independence
import SharedContext.Reducer.OrderIndependence

/-!
# Merging concurrent histories

Two installations extend one history independently.  Publications,
resolutions and revisions that meet at a shared fact become several heads;
only two confirmations of one Candidate are rejected together.  So the merge
quarantines nothing exactly when no Candidate is confirmed on both sides.
-/

namespace SharedContext

/-! ### Newly defined identifiers -/

/-- The identifiers of the facts an event introduces.  A Context is introduced
by each of its revisions. -/
def ReducerEvent.definedIds (event : ReducerEvent) : List AnyId :=
  event.eventId.any ::
    match event.payload with
    | .contextCandidateCreated candidate =>
        [candidate.candidateId.any, candidate.submissionId.any]
    | .candidateConfirmed confirmation => [confirmation.confirmationId.any]
    | .spaceCreated spaceId revision => [spaceId.any, revision.revisionId.any]
    | .spaceIntentRevisionAdded _ revision => [revision.revisionId.any]
    | .contextRevisionAdded _ contextId revision =>
        [contextId.any, revision.revisionId.any] ++
          revision.evidence.map fun evidence => evidence.evidenceId.any
    | .contextReviewed _ _ review => [review.reviewId.any]
    | .contextPublicationChanged _ _ publication => [publication.publicationId.any]
    | .contextSpaceAssociationChanged association => [association.associationId.any]
    | .semanticConflictOpened _ conflict => [conflict.conflictId.any]
    | .semanticConflictResolutionAdded _ _ resolution => [resolution.resolutionId.any]
    | .engineeringReferenceRecorded _ _ reference => [reference.referenceId.any]

/-- The identifiers that a branch defines and its base does not. -/
def newlyDefined (base branch : List ReducerEvent) : Set AnyId :=
  {id | id ∈ branch.flatMap ReducerEvent.definedIds ∧
    id ∉ base.flatMap ReducerEvent.definedIds}

def ReducerEvent.confirms? (event : ReducerEvent) : Option CandidateId :=
  match event.payload with
  | .candidateConfirmed confirmation => some confirmation.candidateId
  | _ => none

def ConfirmedTwice (left right : List ReducerEvent) (candidateId : CandidateId) : Prop :=
  (∃ event ∈ left, event.confirms? = some candidateId) ∧
    ∃ event ∈ right, event.confirms? = some candidateId

theorem confirms_iff {event : ReducerEvent} {candidateId : CandidateId} :
    event.confirms? = some candidateId ↔ .confirmedCandidate candidateId ∈ event.identities := by
  obtain ⟨eventId, payload⟩ := event
  cases payload <;>
    simp [ReducerEvent.confirms?, ReducerEvent.identities, ReducerEvent.entityIdentities, eq_comm]

theorem identity_defined {event : ReducerEvent} {identity : Identity}
    (member : identity ∈ event.identities)
    (notConfirmed : ∀ candidateId, identity ≠ .confirmedCandidate candidateId) :
    identity.id ∈ event.definedIds := by
  obtain ⟨eventId, payload⟩ := event
  rcases List.mem_cons.mp member with rfl | entity
  · exact List.mem_cons_self
  apply List.mem_cons_of_mem
  cases payload with
  | contextRevisionAdded spaceId contextId revision =>
      rcases List.mem_cons.mp entity with rfl | isEvidence
      · exact List.mem_append_left _ (List.mem_cons_of_mem _ List.mem_cons_self)
      · obtain ⟨evidence, inRevision, rfl⟩ := List.mem_map.mp isEvidence
        exact List.mem_append_right _ (List.mem_map.mpr ⟨evidence, inRevision, rfl⟩)
  | candidateConfirmed confirmation =>
      simp only [ReducerEvent.entityIdentities, List.mem_cons, List.not_mem_nil,
        or_false] at entity
      rcases entity with rfl | rfl
      · exact List.mem_cons_self
      · exact absurd rfl (notConfirmed _)
  | _ =>
      simp only [ReducerEvent.entityIdentities, List.mem_cons, List.not_mem_nil,
        or_false] at entity
      rcases entity with rfl | rfl <;> simp [Identity.id]

theorem identity_of_defined {event : ReducerEvent} {identity : Identity}
    (notConfirmed : ∀ candidateId, identity ≠ .confirmedCandidate candidateId)
    (defined : identity.id ∈ event.definedIds) : identity ∈ event.identities := by
  obtain ⟨eventId, payload⟩ := event
  cases payload <;> cases identity <;>
    simp_all [ReducerEvent.definedIds, ReducerEvent.identities, ReducerEvent.entityIdentities,
      Identity.id]

/-! ### Clean histories -/

variable {hasher : ContentHasher} {base left right : List ReducerEvent}

theorem factsOf_perm {events others : List ReducerEvent} (permuted : events.Perm others) :
    factsOf events = factsOf others :=
  facts_same (collectDefinitions_same permuted)

theorem quarantined_eq_empty_iff {events : List ReducerEvent} :
    (reduce events hasher).quarantinedEventIds = ∅ ↔
      ∀ event ∈ events, event.Accepted hasher (factsOf events) := by
  rw [Finset.eq_empty_iff_forall_notMem]
  constructor
  · intro clean event isEvent
    by_contra rejected
    exact clean _ ((quarantined_iff isEvent).mpr rejected)
  · intro accepted id member
    obtain ⟨event, isEvent, -, rejected⟩ := mem_quarantinedEventIds.mp member
    exact rejected (accepted event isEvent)

theorem defined_of_mentioned {events : List ReducerEvent} {event : ReducerEvent}
    (isEvent : event ∈ events) (accepted : event.Accepted hasher (factsOf events))
    {contextId : ContextId} (mentioned : contextId ∈ event.mentionedContexts) :
    ∃ definer ∈ events, contextId.any ∈ definer.definedIds := by
  obtain ⟨spaceId, -, isContext⟩ := contexts_of_accepted isEvent accepted mentioned
  obtain ⟨revisionId, node, found⟩ := mem_keys_validContexts.mp isContext
  obtain ⟨-, sameKey, isDefiner, -⟩ := (validRevisions_iff hasher).mp found
  refine ⟨node.event, isDefiner, ?_⟩
  have sameContext : node.contextId = contextId := congrArg Prod.snd sameKey
  apply List.mem_cons_of_mem
  exact List.mem_append_left _ (sameContext ▸ List.mem_cons_self)

theorem mentioned_of_defined {event : ReducerEvent} {contextId : ContextId}
    (defined : contextId.any ∈ event.definedIds) : contextId ∈ event.mentionedContexts := by
  obtain ⟨eventId, payload⟩ := event
  cases payload <;> simp [ReducerEvent.definedIds, ReducerEvent.mentionedContexts] at *
  exact defined

section Merge

variable (leftAccepted : ∀ event ∈ base ++ left, event.Accepted hasher (factsOf (base ++ left)))
  (rightAccepted : ∀ event ∈ base ++ right, event.Accepted hasher (factsOf (base ++ right)))
  (disjoint : Disjoint (newlyDefined base left) (newlyDefined base right))
include leftAccepted rightAccepted disjoint

theorem uniqueIn_merge (once : ∀ candidateId, ¬ ConfirmedTwice left right candidateId)
    {event : ReducerEvent} (isEvent : event ∈ base ++ left) :
    event.UniqueIn (base ++ left ++ right) := by
  intro identity member
  have leftOnce := unique_of_accepted isEvent (leftAccepted event isEvent) identity member
  rw [definitionCount_append, leftOnce]
  by_contra repeated
  have inRight : 0 < definitionCount right identity := by omega
  obtain ⟨other, isOther, otherDefines⟩ := definitionCount_pos.mp inRight
  have rightOnce := unique_of_accepted (List.mem_append_right base isOther)
    (rightAccepted other (List.mem_append_right base isOther)) identity otherDefines
  -- What the base defines too would be repeated in the right history already.
  have notInBase : ∀ definer ∈ base, identity ∉ definer.identities := by
    intro definer isDefiner defines
    have inBase := definitionCount_pos.mpr ⟨definer, isDefiner, defines⟩
    rw [definitionCount_append] at rightOnce
    omega
  have inLeft : event ∈ left := by
    rcases List.mem_append.mp isEvent with inBase | inLeft
    · exact absurd member (notInBase event inBase)
    · exact inLeft
  by_cases confirmed : ∃ candidateId, identity = .confirmedCandidate candidateId
  · obtain ⟨candidateId, rfl⟩ := confirmed
    exact once candidateId
      ⟨⟨event, inLeft, confirms_iff.mpr member⟩, other, isOther, confirms_iff.mpr otherDefines⟩
  · have notConfirmed := not_exists.mp confirmed
    have newId : identity.id ∉ base.flatMap ReducerEvent.definedIds := by
      intro defined
      obtain ⟨definer, isDefiner, defines⟩ := List.mem_flatMap.mp defined
      exact notInBase definer isDefiner (identity_of_defined notConfirmed defines)
    apply Set.disjoint_left.mp disjoint
    · exact ⟨List.mem_flatMap.mpr ⟨event, inLeft, identity_defined member notConfirmed⟩, newId⟩
    · exact ⟨List.mem_flatMap.mpr ⟨other, isOther, identity_defined otherDefines notConfirmed⟩,
        newId⟩

theorem sameOwner_merge {event : ReducerEvent} (isEvent : event ∈ base ++ left)
    {contextId : ContextId} (mentioned : contextId ∈ event.mentionedContexts) {spaceId : SpaceId}
    (referenced : spaceId ∈ event.referencedSpaces) {other : ReducerEvent} (isOther : other ∈ right)
    (otherMentions : contextId ∈ other.mentionedContexts) {owner : SpaceId}
    (otherReferences : owner ∈ other.referencedSpaces) : owner = spaceId := by
  have accepted := leftAccepted event isEvent
  have inRight : other ∈ base ++ right := List.mem_append_right base isOther
  by_cases inBase : ∃ definer ∈ base, contextId ∈ definer.mentionedContexts
  · obtain ⟨definer, isDefiner, mentions⟩ := inBase
    have definerLeft := List.mem_append_left left isDefiner
    have definerRight := List.mem_append_left right isDefiner
    obtain ⟨shared, isShared, -⟩ :=
      contexts_of_accepted definerLeft (leftAccepted definer definerLeft) mentions
    have sharedEq := owner_of_accepted isEvent accepted mentioned referenced definerLeft mentions
      isShared
    have ownerEq := owner_of_accepted definerRight (rightAccepted definer definerRight) mentions
      isShared inRight otherMentions otherReferences
    exact ownerEq.trans sharedEq
  · have newId : contextId.any ∉ base.flatMap ReducerEvent.definedIds := by
      intro defined
      obtain ⟨definer, isDefiner, defines⟩ := List.mem_flatMap.mp defined
      exact inBase ⟨definer, isDefiner, mentioned_of_defined defines⟩
    -- So each branch defines the Context anew, which disjointness excludes.
    have definedBy : ∀ branch : List ReducerEvent,
        (∃ definer ∈ base ++ branch, contextId.any ∈ definer.definedIds) →
          contextId.any ∈ newlyDefined base branch := by
      rintro branch ⟨definer, isDefiner, defines⟩
      rcases List.mem_append.mp isDefiner with ofBase | ofBranch
      · exact absurd ⟨definer, ofBase, mentioned_of_defined defines⟩ inBase
      · exact ⟨List.mem_flatMap.mpr ⟨definer, ofBranch, defines⟩, newId⟩
    exact absurd (definedBy right (defined_of_mentioned inRight (rightAccepted other inRight)
        otherMentions))
      (Set.disjoint_left.mp disjoint
        (definedBy left (defined_of_mentioned isEvent accepted mentioned)))

theorem keeps_merge (once : ∀ candidateId, ¬ ConfirmedTwice left right candidateId) :
    Keeps hasher (base ++ left) (base ++ left ++ right) := by
  apply keeps_of_sameOwners
  · exact fun event isEvent => List.mem_append_left _ isEvent
  · exact fun event isEvent _ =>
      uniqueIn_merge leftAccepted rightAccepted disjoint once isEvent
  · intro event isEvent accepted contextId mentioned spaceId referenced other isOther
      otherMentions owner otherReferences
    rcases List.mem_append.mp isOther with inLeft | inRight
    · exact owner_of_accepted isEvent accepted mentioned referenced inLeft otherMentions
        otherReferences
    · exact sameOwner_merge leftAccepted rightAccepted disjoint isEvent mentioned referenced
        inRight otherMentions otherReferences

end Merge

theorem confirmedTwice_quarantined {candidateId : CandidateId}
    (twice : ConfirmedTwice left right candidateId) :
    (reduce (base ++ left ++ right) hasher).quarantinedEventIds ≠ ∅ := by
  intro clean
  obtain ⟨⟨first, isFirst, firstConfirms⟩, second, isSecond, secondConfirms⟩ := twice
  have isEvent : first ∈ base ++ left ++ right :=
    List.mem_append_left _ (List.mem_append_right _ isFirst)
  have once := unique_of_accepted isEvent (quarantined_eq_empty_iff.mp clean first isEvent)
    (.confirmedCandidate candidateId) (confirms_iff.mp firstConfirms)
  have inLeft := definitionCount_pos.mpr ⟨first, isFirst, confirms_iff.mp firstConfirms⟩
  have inRight := definitionCount_pos.mpr ⟨second, isSecond, confirms_iff.mp secondConfirms⟩
  rw [definitionCount_append, definitionCount_append] at once
  omega

/-- Two clean branches with disjoint new identifiers merge cleanly exactly when
they confirm no Candidate twice. -/
theorem merge_quarantines_nothing_iff (hasher : ContentHasher)
    (base left right : List ReducerEvent)
    (leftClean : (reduce (base ++ left) hasher).quarantinedEventIds = ∅)
    (rightClean : (reduce (base ++ right) hasher).quarantinedEventIds = ∅)
    (disjoint : Disjoint (newlyDefined base left) (newlyDefined base right)) :
    (reduce (base ++ left ++ right) hasher).quarantinedEventIds = ∅ ↔
      ∀ candidateId, ¬ ConfirmedTwice left right candidateId := by
  constructor
  · exact fun clean candidateId twice => confirmedTwice_quarantined twice clean
  · intro once
    have leftAccepted := quarantined_eq_empty_iff.mp leftClean
    have rightAccepted := quarantined_eq_empty_iff.mp rightClean
    have swapped : ∀ candidateId, ¬ ConfirmedTwice right left candidateId :=
      fun candidateId twice => once candidateId twice.symm
    have permuted : (base ++ right ++ left).Perm (base ++ left ++ right) := by
      rw [List.append_assoc, List.append_assoc]
      exact List.perm_append_comm.append_left base
    apply quarantined_eq_empty_iff.mpr
    intro event isEvent
    rcases List.mem_append.mp isEvent with inLeft | inRight
    · exact (keeps_merge leftAccepted rightAccepted disjoint once).accepts inLeft
        (leftAccepted event inLeft)
    · have ofRight : event ∈ base ++ right := List.mem_append_right base inRight
      rw [← factsOf_perm permuted]
      exact (keeps_merge rightAccepted leftAccepted disjoint.symm swapped).accepts ofRight
        (rightAccepted event ofRight)

/-! ### Two installations confirm one Candidate -/

def sampleSubmission : ReducerEvent where
  eventId := ⟨5⟩
  payload := .contextCandidateCreated sampleCandidate

/-- A Space and a Candidate that both installations know. -/
def sharedHistory : List ReducerEvent :=
  [sampleCreation, sampleSubmission]

def firstConfirmation : List ReducerEvent :=
  sampleConfirmation (freshIds 16)

def secondConfirmation : List ReducerEvent :=
  sampleConfirmation (freshIds 32)

theorem newlyDefined_disjoint {base left right : List ReducerEvent}
    (distinct : ∀ id ∈ left.flatMap ReducerEvent.definedIds,
      id ∉ right.flatMap ReducerEvent.definedIds) :
    Disjoint (newlyDefined base left) (newlyDefined base right) := by
  rw [Set.disjoint_left]
  intro id inLeft inRight
  exact distinct id inLeft.1 inRight.1

theorem firstConfirmation_clean :
    (reduce (sharedHistory ++ firstConfirmation)
      planHasher.toContentHasher).quarantinedEventIds = ∅ := by
  decide +kernel

/-- Each branch is clean, yet the merge quarantines both confirmations. -/
theorem concurrent_confirmations_clash :
    ¬ ∀ (hasher : ContentHasher) (base left right : List ReducerEvent),
      (∀ event ∈ base ++ left ++ right, event.SchemaValid) →
      Disjoint (newlyDefined base left) (newlyDefined base right) →
      (reduce base hasher).quarantinedEventIds = ∅ →
      (reduce (base ++ left) hasher).quarantinedEventIds = ∅ →
      (reduce (base ++ right) hasher).quarantinedEventIds = ∅ →
        (reduce (base ++ left ++ right) hasher).quarantinedEventIds = ∅ := by
  intro merges
  have merged := merges planHasher.toContentHasher sharedHistory firstConfirmation
    secondConfirmation (by decide) (newlyDefined_disjoint (by decide))
    (by decide +kernel) firstConfirmation_clean (by decide +kernel)
  revert merged
  decide +kernel

/-- A confirmation and an Intent revision merge cleanly. -/
theorem merge_quarantines_nothing_sample :
    (reduce (sharedHistory ++ firstConfirmation ++ [sampleSuccessor])
      planHasher.toContentHasher).quarantinedEventIds = ∅ := by
  apply (merge_quarantines_nothing_iff planHasher.toContentHasher sharedHistory
    firstConfirmation [sampleSuccessor] firstConfirmation_clean (by decide +kernel)
    (newlyDefined_disjoint (by decide))).mpr
  rintro candidateId ⟨-, event, member, confirms⟩
  rw [List.mem_singleton.mp member] at confirms
  cases confirms

end SharedContext
