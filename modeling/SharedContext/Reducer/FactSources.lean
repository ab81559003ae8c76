import SharedContext.Reducer.Sources

/-!
# Facts and their events

Each unique definition is stored with enough data to rebuild the event it
stems from.  A table of facts answers a key exactly when that event is in the
input and no other event defines the key.
-/

namespace SharedContext

/-! ### The event of a node -/

def CandidateNode.event (node : CandidateNode) : ReducerEvent :=
  ⟨node.eventId, .contextCandidateCreated node.candidate⟩

def CandidateConfirmationNode.event (node : CandidateConfirmationNode) : ReducerEvent :=
  ⟨node.eventId, .candidateConfirmed node.confirmation⟩

def ContextSpaceAssociationNode.event (node : ContextSpaceAssociationNode) : ReducerEvent :=
  ⟨node.eventId, .contextSpaceAssociationChanged node.association⟩

def IntentNode.creation (node : IntentNode) : ReducerEvent :=
  ⟨node.eventId, .spaceCreated node.spaceId node.revision⟩

def IntentNode.addition (node : IntentNode) : ReducerEvent :=
  ⟨node.eventId, .spaceIntentRevisionAdded node.spaceId node.revision⟩

def ContextNode.event (node : ContextNode) : ReducerEvent :=
  ⟨node.eventId, .contextRevisionAdded node.spaceId node.contextId node.revision⟩

def ReviewNode.event (node : ReviewNode) : ReducerEvent :=
  ⟨node.eventId, .contextReviewed node.spaceId node.contextId node.review⟩

def PublicationNode.event (node : PublicationNode) : ReducerEvent :=
  ⟨node.eventId, .contextPublicationChanged node.spaceId node.contextId node.publication⟩

def ConflictNode.event (node : ConflictNode) : ReducerEvent :=
  ⟨node.eventId, .semanticConflictOpened node.spaceId node.conflict⟩

def ResolutionNode.event (node : ResolutionNode) : ReducerEvent :=
  ⟨node.eventId, .semanticConflictResolutionAdded node.spaceId node.conflictId node.resolution⟩

def EngineeringReferenceNode.event (node : EngineeringReferenceNode) : ReducerEvent :=
  ⟨node.eventId, .engineeringReferenceRecorded node.contextId node.revisionId node.reference⟩

/-! ### What one event lists -/

section Entries

variable {event : ReducerEvent}

theorem mem_candidateTable {key : CandidateId} {node : CandidateNode} :
    (key, node) ∈ candidateTable.entries event ↔
      key = node.candidate.candidateId ∧ event = node.event := by
  obtain ⟨eventId, payload⟩ := event
  cases node
  cases payload <;> simp [candidateTable, candidateEntry, CandidateNode.event]
  all_goals grind

theorem mem_submissionTable {key : SubmissionId} {node : CandidateNode} :
    (key, node) ∈ submissionTable.entries event ↔
      key = node.candidate.submissionId ∧ event = node.event := by
  obtain ⟨eventId, payload⟩ := event
  cases node
  cases payload <;> simp [submissionTable, submissionEntry, CandidateNode.event]
  all_goals grind

theorem mem_confirmationByCandidateTable {key : CandidateId} {node : CandidateConfirmationNode} :
    (key, node) ∈ confirmationByCandidateTable.entries event ↔
      key = node.confirmation.candidateId ∧ event = node.event := by
  obtain ⟨eventId, payload⟩ := event
  cases node
  cases payload <;> simp [confirmationByCandidateTable, confirmationByCandidateEntry, CandidateConfirmationNode.event]
  all_goals grind

theorem mem_confirmationTable {key : ConfirmationId} {node : CandidateConfirmationNode} :
    (key, node) ∈ confirmationTable.entries event ↔
      key = node.confirmation.confirmationId ∧ event = node.event := by
  obtain ⟨eventId, payload⟩ := event
  cases node
  cases payload <;> simp [confirmationTable, confirmationEntry, CandidateConfirmationNode.event]
  all_goals grind

theorem mem_associationTable {key : SpaceAssociationId} {node : ContextSpaceAssociationNode} :
    (key, node) ∈ associationTable.entries event ↔
      key = node.association.associationId ∧ event = node.event := by
  obtain ⟨eventId, payload⟩ := event
  cases node
  cases payload <;> simp [associationTable, associationEntry, ContextSpaceAssociationNode.event]
  all_goals grind

theorem mem_spaceCreationTable {key : SpaceId} {node : IntentNode} :
    (key, node) ∈ spaceCreationTable.entries event ↔
      key = node.spaceId ∧ event = node.creation := by
  obtain ⟨eventId, payload⟩ := event
  cases node
  cases payload <;> simp [spaceCreationTable, spaceCreationEntry, IntentNode.creation]
  all_goals grind

theorem mem_intentTable {key : RevisionId} {node : IntentNode} :
    (key, node) ∈ intentTable.entries event ↔
      key = node.revision.revisionId ∧ (event = node.creation ∨ event = node.addition) := by
  obtain ⟨eventId, payload⟩ := event
  cases node
  cases payload <;> simp [intentTable, intentEntry, IntentNode.creation, IntentNode.addition]
  all_goals grind

theorem mem_contextTable {key : RevisionId} {node : ContextNode} :
    (key, node) ∈ contextTable.entries event ↔
      key = node.revision.revisionId ∧ event = node.event := by
  obtain ⟨eventId, payload⟩ := event
  cases node
  cases payload <;> simp [contextTable, contextEntry, ContextNode.event]
  all_goals grind

theorem mem_reviewTable {key : ReviewId} {node : ReviewNode} :
    (key, node) ∈ reviewTable.entries event ↔
      key = node.review.reviewId ∧ event = node.event := by
  obtain ⟨eventId, payload⟩ := event
  cases node
  cases payload <;> simp [reviewTable, reviewEntry, ReviewNode.event]
  all_goals grind

theorem mem_publicationTable {key : PublicationId} {node : PublicationNode} :
    (key, node) ∈ publicationTable.entries event ↔
      key = node.publication.publicationId ∧ event = node.event := by
  obtain ⟨eventId, payload⟩ := event
  cases node
  cases payload <;> simp [publicationTable, publicationEntry, PublicationNode.event]
  all_goals grind

theorem mem_conflictTable {key : ConflictId} {node : ConflictNode} :
    (key, node) ∈ conflictTable.entries event ↔
      key = node.conflict.conflictId ∧ event = node.event := by
  obtain ⟨eventId, payload⟩ := event
  cases node
  cases payload <;> simp [conflictTable, conflictEntry, ConflictNode.event]
  all_goals grind

theorem mem_resolutionTable {key : ResolutionId} {node : ResolutionNode} :
    (key, node) ∈ resolutionTable.entries event ↔
      key = node.resolution.resolutionId ∧ event = node.event := by
  obtain ⟨eventId, payload⟩ := event
  cases node
  cases payload <;> simp [resolutionTable, resolutionEntry, ResolutionNode.event]
  all_goals grind

theorem mem_referenceTable {key : ReferenceId} {node : EngineeringReferenceNode} :
    (key, node) ∈ referenceTable.entries event ↔
      key = node.reference.referenceId ∧ event = node.event := by
  obtain ⟨eventId, payload⟩ := event
  cases node
  cases payload <;> simp [referenceTable, referenceEntry, EngineeringReferenceNode.event]
  all_goals grind

end Entries

/-! ### Uniqueness of valid events -/

variable {events : List ReducerEvent}

theorem count_of_valid {event : ReducerEvent} (isEvent : event ∈ events)
    (valid : event.eventId ∉ (factsOf events).invalidEventIds) {identity : Identity}
    (member : identity ∈ event.identities) (invalidates : identity.invalidates = true) :
    definitionCount events identity = 1 := by
  have positive := definitionCount_pos.mpr ⟨event, isEvent, member⟩
  by_contra several
  apply valid
  apply mem_invalidEventIds.mpr
  exact ⟨event, isEvent, rfl, identity, member, invalidates, by omega⟩

theorem DefinitionTable.found_of_valid {kind : IdKind} {ν : Type}
    {table : DefinitionTable (OpaqueId kind) ν} {key : OpaqueId kind} {node : ν}
    {event : ReducerEvent} (isEvent : event ∈ events) (isEntry : (key, node) ∈ table.entries event)
    (invalidates : (table.identity key).invalidates = true)
    (valid : event.eventId ∉ (factsOf events).invalidEventIds) :
    (table.collect events).unique.get? key = some node := by
  apply table.found_of_count isEvent isEntry
  exact count_of_valid isEvent valid (table.identity_mem isEntry) invalidates

section Lookups

variable {kind : IdKind} {ν : Type} {table : DefinitionTable (OpaqueId kind) ν}
  {key ownKey : OpaqueId kind} {node : ν} {ownEvent : ReducerEvent}

theorem DefinitionTable.event_of_found
    (entries : ∀ event, (key, node) ∈ table.entries event ↔
      key = ownKey ∧ event = ownEvent)
    (found : (table.collect events).unique.get? key = some node) :
    key = ownKey ∧ ownEvent ∈ events := by
  obtain ⟨event, isEvent, isEntry⟩ := table.exists_event found
  obtain ⟨keyEq, rfl⟩ := (entries event).mp isEntry
  exact ⟨keyEq, isEvent⟩

theorem DefinitionTable.found_iff_of_valid
    (entries : ∀ event, (key, node) ∈ table.entries event ↔
      key = ownKey ∧ event = ownEvent)
    (invalidates : ∀ key, (table.identity key).invalidates = true)
    (valid : ownEvent.eventId ∉ (factsOf events).invalidEventIds) :
    (table.collect events).unique.get? key = some node ↔
      key = ownKey ∧ ownEvent ∈ events := by
  refine ⟨table.event_of_found entries, fun ⟨keyEq, isEvent⟩ => ?_⟩
  exact table.found_of_valid isEvent ((entries _).mpr ⟨keyEq, rfl⟩) (invalidates _) valid

end Lookups

theorem event_eq_of_valid {first second : ReducerEvent} (isFirst : first ∈ events)
    (isSecond : second ∈ events) (sameId : first.eventId = second.eventId)
    (valid : first.eventId ∉ (factsOf events).invalidEventIds) : first = second := by
  have firstEntry : (first.eventId, first) ∈ eventTable.entries first :=
    List.mem_singleton_self _
  have secondEntry : (first.eventId, second) ∈ eventTable.entries second := by
    rw [sameId]
    exact List.mem_singleton_self _
  have found := DefinitionTable.found_of_valid isFirst firstEntry rfl valid
  exact (DefinitionTable.eq_of_found found isSecond secondEntry).symm

/-! ### What the tables of facts answer -/

theorem factsOf_candidates : (factsOf events).candidates = (candidateTable.collect events).unique := by
  rw [factsOf, collectDefinitions_eq]
  rfl

theorem factsOf_submissions : (factsOf events).submissions = (submissionTable.collect events).unique := by
  rw [factsOf, collectDefinitions_eq]
  rfl

theorem factsOf_confirmationsByCandidate : (factsOf events).confirmationsByCandidate = (confirmationByCandidateTable.collect events).unique := by
  rw [factsOf, collectDefinitions_eq]
  rfl

theorem factsOf_associations : (factsOf events).associations = (associationTable.collect events).unique := by
  rw [factsOf, collectDefinitions_eq]
  rfl

theorem factsOf_spaceCreations : (factsOf events).spaceCreations = (spaceCreationTable.collect events).unique := by
  rw [factsOf, collectDefinitions_eq]
  rfl

theorem factsOf_intents : (factsOf events).intents = (intentTable.collect events).unique := by
  rw [factsOf, collectDefinitions_eq]
  rfl

theorem factsOf_contexts : (factsOf events).contexts = (contextTable.collect events).unique := by
  rw [factsOf, collectDefinitions_eq]
  rfl

theorem factsOf_reviews : (factsOf events).reviews = (reviewTable.collect events).unique := by
  rw [factsOf, collectDefinitions_eq]
  rfl

theorem factsOf_publications : (factsOf events).publications = (publicationTable.collect events).unique := by
  rw [factsOf, collectDefinitions_eq]
  rfl

theorem factsOf_conflicts : (factsOf events).conflicts = (conflictTable.collect events).unique := by
  rw [factsOf, collectDefinitions_eq]
  rfl

theorem factsOf_resolutions : (factsOf events).resolutions = (resolutionTable.collect events).unique := by
  rw [factsOf, collectDefinitions_eq]
  rfl

theorem factsOf_references : (factsOf events).references = (referenceTable.collect events).unique := by
  rw [factsOf, collectDefinitions_eq]
  rfl

theorem candidates_iff {key : CandidateId} {node : CandidateNode}
    (valid : node.eventId ∉ (factsOf events).invalidEventIds) :
    (factsOf events).candidates.get? key = some node ↔
      key = node.candidate.candidateId ∧ node.event ∈ events := by
  rw [factsOf_candidates]
  exact DefinitionTable.found_iff_of_valid (fun _ => mem_candidateTable) (fun _ => rfl) valid

theorem submissions_iff {key : SubmissionId} {node : CandidateNode}
    (valid : node.eventId ∉ (factsOf events).invalidEventIds) :
    (factsOf events).submissions.get? key = some node ↔
      key = node.candidate.submissionId ∧ node.event ∈ events := by
  rw [factsOf_submissions]
  exact DefinitionTable.found_iff_of_valid (fun _ => mem_submissionTable) (fun _ => rfl) valid

theorem confirmationsByCandidate_iff {key : CandidateId} {node : CandidateConfirmationNode}
    (valid : node.eventId ∉ (factsOf events).invalidEventIds) :
    (factsOf events).confirmationsByCandidate.get? key = some node ↔
      key = node.confirmation.candidateId ∧ node.event ∈ events := by
  rw [factsOf_confirmationsByCandidate]
  exact DefinitionTable.found_iff_of_valid (fun _ => mem_confirmationByCandidateTable) (fun _ => rfl) valid

theorem associations_iff {key : SpaceAssociationId} {node : ContextSpaceAssociationNode}
    (valid : node.eventId ∉ (factsOf events).invalidEventIds) :
    (factsOf events).associations.get? key = some node ↔
      key = node.association.associationId ∧ node.event ∈ events := by
  rw [factsOf_associations]
  exact DefinitionTable.found_iff_of_valid (fun _ => mem_associationTable) (fun _ => rfl) valid

theorem contexts_iff {key : RevisionId} {node : ContextNode}
    (valid : node.eventId ∉ (factsOf events).invalidEventIds) :
    (factsOf events).contexts.get? key = some node ↔
      key = node.revision.revisionId ∧ node.event ∈ events := by
  rw [factsOf_contexts]
  exact DefinitionTable.found_iff_of_valid (fun _ => mem_contextTable) (fun _ => rfl) valid

theorem reviews_iff {key : ReviewId} {node : ReviewNode}
    (valid : node.eventId ∉ (factsOf events).invalidEventIds) :
    (factsOf events).reviews.get? key = some node ↔
      key = node.review.reviewId ∧ node.event ∈ events := by
  rw [factsOf_reviews]
  exact DefinitionTable.found_iff_of_valid (fun _ => mem_reviewTable) (fun _ => rfl) valid

theorem publications_iff {key : PublicationId} {node : PublicationNode}
    (valid : node.eventId ∉ (factsOf events).invalidEventIds) :
    (factsOf events).publications.get? key = some node ↔
      key = node.publication.publicationId ∧ node.event ∈ events := by
  rw [factsOf_publications]
  exact DefinitionTable.found_iff_of_valid (fun _ => mem_publicationTable) (fun _ => rfl) valid

theorem conflicts_iff {key : ConflictId} {node : ConflictNode}
    (valid : node.eventId ∉ (factsOf events).invalidEventIds) :
    (factsOf events).conflicts.get? key = some node ↔
      key = node.conflict.conflictId ∧ node.event ∈ events := by
  rw [factsOf_conflicts]
  exact DefinitionTable.found_iff_of_valid (fun _ => mem_conflictTable) (fun _ => rfl) valid

theorem resolutions_iff {key : ResolutionId} {node : ResolutionNode}
    (valid : node.eventId ∉ (factsOf events).invalidEventIds) :
    (factsOf events).resolutions.get? key = some node ↔
      key = node.resolution.resolutionId ∧ node.event ∈ events := by
  rw [factsOf_resolutions]
  exact DefinitionTable.found_iff_of_valid (fun _ => mem_resolutionTable) (fun _ => rfl) valid

theorem intents_iff {key : RevisionId} {node : IntentNode}
    (valid : node.eventId ∉ (factsOf events).invalidEventIds) :
    (factsOf events).intents.get? key = some node ↔
      key = node.revision.revisionId ∧ (node.creation ∈ events ∨ node.addition ∈ events) := by
  rw [factsOf_intents]
  constructor
  · intro found
    obtain ⟨event, isEvent, isEntry⟩ := intentTable.exists_event found
    obtain ⟨keyEq, rfl | rfl⟩ := mem_intentTable.mp isEntry
    · exact ⟨keyEq, .inl isEvent⟩
    · exact ⟨keyEq, .inr isEvent⟩
  · rintro ⟨rfl, isEvent | isEvent⟩
    · exact DefinitionTable.found_of_valid isEvent (mem_intentTable.mpr ⟨rfl, .inl rfl⟩) rfl valid
    · exact DefinitionTable.found_of_valid isEvent (mem_intentTable.mpr ⟨rfl, .inr rfl⟩) rfl valid

/-- Duplicate Space creations do not make their events invalid, so the count is
part of the condition; likewise for engineering references. -/
theorem spaceCreations_iff {key : SpaceId} {node : IntentNode} :
    (factsOf events).spaceCreations.get? key = some node ↔
      key = node.spaceId ∧ node.creation ∈ events ∧
        definitionCount events (.spaceCreation key) = 1 := by
  rw [factsOf_spaceCreations]
  constructor
  · intro found
    obtain ⟨event, isEvent, isEntry⟩ := spaceCreationTable.exists_event found
    obtain ⟨keyEq, rfl⟩ := mem_spaceCreationTable.mp isEntry
    exact ⟨keyEq, isEvent, DefinitionTable.count_of_found spaceCreationTable_exact found⟩
  · rintro ⟨rfl, isEvent, once⟩
    exact DefinitionTable.found_of_count isEvent (mem_spaceCreationTable.mpr ⟨rfl, rfl⟩) once

theorem references_iff {key : ReferenceId} {node : EngineeringReferenceNode} :
    (factsOf events).references.get? key = some node ↔
      key = node.reference.referenceId ∧ node.event ∈ events ∧
        definitionCount events (.reference key) = 1 := by
  rw [factsOf_references]
  constructor
  · intro found
    obtain ⟨event, isEvent, isEntry⟩ := referenceTable.exists_event found
    obtain ⟨keyEq, rfl⟩ := mem_referenceTable.mp isEntry
    exact ⟨keyEq, isEvent, DefinitionTable.count_of_found referenceTable_exact found⟩
  · rintro ⟨rfl, isEvent, once⟩
    exact DefinitionTable.found_of_count isEvent (mem_referenceTable.mpr ⟨rfl, rfl⟩) once

theorem mem_associationContextIds {contextId : ContextId} :
    contextId ∈ (factsOf events).associationContextIds ↔
      ∃ node : ContextSpaceAssociationNode, node.event ∈ events ∧ node.contextId = contextId := by
  rw [factsOf, collectDefinitions_eq]
  simp only [Definitions.facts, BTreeMap.mem_flatMap, DefinitionTable.collect,
    BTreeMap.get?_group_eq_some, List.mem_toFinset, List.mem_map]
  constructor
  · rintro ⟨key, _, ⟨-, rfl⟩, node, isListed, rfl⟩
    obtain ⟨event, isEvent, isEntry⟩ := DefinitionTable.mem_listed.mp isListed
    obtain ⟨-, rfl⟩ := mem_associationTable.mp isEntry
    exact ⟨node, isEvent, rfl⟩
  · rintro ⟨node, isEvent, rfl⟩
    have isListed := DefinitionTable.mem_listed.mpr
      ⟨node.event, isEvent, mem_associationTable.mpr ⟨rfl, rfl⟩⟩
    exact ⟨_, _, ⟨List.ne_nil_of_mem isListed, rfl⟩, node, isListed, rfl⟩

/-! ### Context owners -/

theorem mem_ownerEntries {event : ReducerEvent} {contextId : ContextId} {spaceId : SpaceId} :
    (contextId, spaceId) ∈ ownerEntries event ↔
      contextId ∈ event.mentionedContexts ∧ spaceId ∈ event.referencedSpaces := by
  obtain ⟨eventId, payload⟩ := event
  cases payload <;>
    simp [ownerEntries, ReducerEvent.mentionedContexts, ReducerEvent.referencedSpaces]
  all_goals grind

theorem contextOwners_iff {contextId : ContextId} {owners : Finset SpaceId} :
    (factsOf events).contextOwners.get? contextId = some owners ↔
      owners.Nonempty ∧ ∀ spaceId, spaceId ∈ owners ↔
        ∃ event ∈ events, contextId ∈ event.mentionedContexts ∧
          spaceId ∈ event.referencedSpaces := by
  have owned : ∀ spaceId,
      spaceId ∈ (BTreeMap.listed (events.flatMap ownerEntries) contextId).toFinset ↔
        ∃ event ∈ events, contextId ∈ event.mentionedContexts ∧
          spaceId ∈ event.referencedSpaces := by
    intro spaceId
    simp [BTreeMap.listed, mem_ownerEntries]
  rw [factsOf, collectDefinitions_eq]
  simp only [Definitions.facts, BTreeMap.get?_map, Option.map_eq_some_iff,
    BTreeMap.get?_group_eq_some]
  constructor
  · rintro ⟨_, ⟨notNil, rfl⟩, rfl⟩
    exact ⟨List.toFinset_nonempty_iff _ |>.mpr notNil, owned⟩
  · rintro ⟨nonempty, members⟩
    have sameOwners : (BTreeMap.listed (events.flatMap ownerEntries) contextId).toFinset = owners := by
      ext spaceId
      rw [owned, members]
    refine ⟨_, ⟨?_, rfl⟩, sameOwners⟩
    rw [← List.toFinset_nonempty_iff, sameOwners]
    exact nonempty

end SharedContext
