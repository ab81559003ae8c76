import SharedContext.Reducer.Preservation

/-!
# Accepted appends

Whatever way a new event could harm an old one (a repeated identity, a second
owner of a Context), it would be rejected together with it.  So a batch whose
own events are accepted cannot push a valid event of the history into
quarantine.
-/

namespace SharedContext

variable {hasher : ContentHasher} {history batch : List ReducerEvent}

theorem referencedSpace_unique {event : ReducerEvent} {contextId : ContextId}
    (mentioned : contextId ∈ event.mentionedContexts) {first second : SpaceId}
    (isFirst : first ∈ event.referencedSpaces) (isSecond : second ∈ event.referencedSpaces) :
    first = second := by
  obtain ⟨eventId, payload⟩ := event
  cases payload <;>
    simp [ReducerEvent.mentionedContexts, ReducerEvent.referencedSpaces] at *
  all_goals rw [isFirst, isSecond]

theorem owners_of_accepted {events : List ReducerEvent} {event : ReducerEvent}
    (isEvent : event ∈ events) (accepted : event.Accepted hasher (factsOf events))
    {contextId : ContextId} (mentioned : contextId ∈ event.mentionedContexts) {spaceId : SpaceId}
    (referenced : spaceId ∈ event.referencedSpaces) :
    (factsOf events).contextOwners.get? contextId = some {spaceId} := by
  obtain ⟨owner, isOwner, isContext⟩ := contexts_of_accepted isEvent accepted mentioned
  rw [referencedSpace_unique mentioned referenced isOwner]
  exact (mem_ownedContexts.mp (mem_ownedContexts_of_valid isContext)).1

theorem uniqueIn_of_creation {events : List ReducerEvent} {node : IntentNode}
    (isEvent : node.creation ∈ events) (valid : node.eventId ∉ (factsOf events).invalidEventIds)
    (isSpace : node.spaceId ∈ validSpaces (factsOf events)) : node.creation.UniqueIn events := by
  intro identity member
  by_cases invalidates : identity.invalidates = true
  · exact count_of_valid isEvent valid member invalidates
  · have isCreation : identity = .spaceCreation node.spaceId := by
      simp only [ReducerEvent.identities, ReducerEvent.entityIdentities, IntentNode.creation,
        List.mem_cons, List.not_mem_nil, or_false] at member
      rcases member with rfl | rfl | rfl
      · exact absurd rfl invalidates
      · rfl
      · exact absurd rfl invalidates
    obtain ⟨creator, found, -⟩ := mem_validSpaces.mp isSpace
    rw [isCreation]
    exact (spaceCreations_iff.mp found).2.2

/-- A longer list keeps what a list accepts when it repeats no identity that
the list defines once and gives no Context of the list a second owner. -/
theorem keeps_of_sameOwners {events others : List ReducerEvent}
    (contained : ∀ event ∈ events, event ∈ others)
    (unique : ∀ event ∈ events, event.UniqueIn events → event.UniqueIn others)
    (sameOwner : ∀ event ∈ events, event.Accepted hasher (factsOf events) →
      ∀ contextId ∈ event.mentionedContexts, ∀ spaceId ∈ event.referencedSpaces,
        ∀ other ∈ others, contextId ∈ other.mentionedContexts →
          ∀ owner ∈ other.referencedSpaces, owner = spaceId) :
    Keeps hasher events others where
  accepted event isEvent accepted :=
    ⟨contained event isEvent, unique event isEvent (unique_of_accepted isEvent accepted)⟩
  creations node isEvent valid isSpace :=
    ⟨contained _ isEvent, unique _ isEvent (uniqueIn_of_creation isEvent valid isSpace)⟩
  owners event isEvent accepted contextId mentioned spaceId referenced := by
    apply contextOwners_iff.mpr
    refine ⟨Finset.singleton_nonempty spaceId, fun owner => ?_⟩
    rw [Finset.mem_singleton]
    constructor
    · rintro rfl
      exact ⟨event, contained event isEvent, mentioned, referenced⟩
    · rintro ⟨other, isOther, otherMentions, otherReferences⟩
      exact sameOwner event isEvent accepted contextId mentioned spaceId referenced other isOther
        otherMentions owner otherReferences

/-- The events that mention a Context reference the Space of an accepted one. -/
theorem owner_of_accepted {events : List ReducerEvent} {event other : ReducerEvent}
    (isEvent : event ∈ events) (accepted : event.Accepted hasher (factsOf events))
    {contextId : ContextId} (mentioned : contextId ∈ event.mentionedContexts) {spaceId : SpaceId}
    (referenced : spaceId ∈ event.referencedSpaces) (isOther : other ∈ events)
    (otherMentions : contextId ∈ other.mentionedContexts) {owner : SpaceId}
    (otherReferences : owner ∈ other.referencedSpaces) : owner = spaceId := by
  have owners := owners_of_accepted isEvent accepted mentioned referenced
  have isOwner := ((contextOwners_iff.mp owners).2 owner).mpr
    ⟨other, isOther, otherMentions, otherReferences⟩
  exact Finset.mem_singleton.mp isOwner

section Append

variable (batchAccepted : ∀ event ∈ batch, event.Accepted hasher (factsOf (history ++ batch)))
include batchAccepted

theorem uniqueIn_append {event : ReducerEvent} (unique : event.UniqueIn history) :
    event.UniqueIn (history ++ batch) := by
  intro identity member
  have once := unique identity member
  rw [definitionCount_append, once]
  by_contra repeated
  have inBatch : 0 < definitionCount batch identity := by omega
  obtain ⟨other, isOther, otherDefines⟩ := definitionCount_pos.mp inBatch
  have otherUnique := unique_of_accepted (List.mem_append_right _ isOther)
    (batchAccepted other isOther) identity otherDefines
  rw [definitionCount_append] at otherUnique
  omega

theorem keeps_append : Keeps hasher history (history ++ batch) := by
  apply keeps_of_sameOwners
  · exact fun event isEvent => List.mem_append_left _ isEvent
  · exact fun event _ unique => uniqueIn_append batchAccepted unique
  · intro event isEvent accepted contextId mentioned spaceId referenced other isOther
      otherMentions owner otherReferences
    rcases List.mem_append.mp isOther with inHistory | inBatch
    · exact owner_of_accepted isEvent accepted mentioned referenced inHistory otherMentions
        otherReferences
    · exact (owner_of_accepted isOther (batchAccepted other inBatch) otherMentions
        otherReferences (List.mem_append_left _ isEvent) mentioned referenced).symm

theorem quarantined_subset_of_accepted :
    (reduce (history ++ batch) hasher).quarantinedEventIds ⊆
      (reduce history hasher).quarantinedEventIds := by
  intro id member
  obtain ⟨event, isEvent, rfl, rejected⟩ := mem_quarantinedEventIds.mp member
  rcases List.mem_append.mp isEvent with inHistory | inBatch
  · apply (quarantined_iff inHistory).mpr
    exact fun accepted => rejected ((keeps_append batchAccepted).accepts inHistory accepted)
  · exact absurd (batchAccepted event inBatch) rejected

end Append

/-- Appending a batch of which nothing is quarantined quarantines nothing else. -/
theorem quarantined_append_subset
    (batchAccepted : ∀ event ∈ batch,
      event.eventId ∉ (reduce (history ++ batch) hasher).quarantinedEventIds) :
    (reduce (history ++ batch) hasher).quarantinedEventIds ⊆
      (reduce history hasher).quarantinedEventIds := by
  have accepts : ∀ event ∈ batch, event.Accepted hasher (factsOf (history ++ batch)) := by
    intro event isEvent
    have notQuarantined := batchAccepted event isEvent
    rwa [quarantined_iff (List.mem_append_right _ isEvent), not_not] at notQuarantined
  exact quarantined_subset_of_accepted accepts

theorem quarantined_append_sample :
    (reduce ([sampleOrphan, sampleCreation] ++ [sampleSuccessor])
        sampleHasher).quarantinedEventIds ⊆
      (reduce [sampleOrphan, sampleCreation] sampleHasher).quarantinedEventIds := by
  apply quarantined_append_subset
  intro event member
  rw [List.mem_singleton.mp member]
  decide +kernel

end SharedContext
