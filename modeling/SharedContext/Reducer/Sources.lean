import SharedContext.Reducer.Reduce

/-!
# Where the facts come from

Every event defines a few identities.  An event is invalid exactly when one of
its identities is defined more than once, and the unique tables answer exactly
for the identities defined once.  This replaces the fourteen duplicate checks
of the reducer by one count.
-/

namespace SharedContext

/-- What an event defines: itself, its entity, and whatever else must be unique. -/
inductive Identity
  | event (id : EventId)
  | candidate (id : CandidateId)
  | submission (id : SubmissionId)
  | confirmation (id : ConfirmationId)
  | confirmedCandidate (id : CandidateId)
  | association (id : SpaceAssociationId)
  | spaceCreation (id : SpaceId)
  | revision (id : RevisionId)
  | evidence (id : EvidenceId)
  | review (id : ReviewId)
  | publication (id : PublicationId)
  | conflict (id : ConflictId)
  | resolution (id : ResolutionId)
  | reference (id : ReferenceId)
  deriving DecidableEq

/-- Whether a second definition puts the event into the invalid set. -/
def Identity.invalidates : Identity → Bool
  | .spaceCreation _ | .reference _ => false
  | _ => true

def ReducerEvent.entityIdentities (event : ReducerEvent) : List Identity :=
  match event.payload with
  | .contextCandidateCreated candidate =>
      [.candidate candidate.candidateId, .submission candidate.submissionId]
  | .candidateConfirmed confirmation =>
      [.confirmation confirmation.confirmationId,
        .confirmedCandidate confirmation.candidateId]
  | .spaceCreated spaceId intentRevision =>
      [.spaceCreation spaceId, .revision intentRevision.revisionId]
  | .spaceIntentRevisionAdded _ intentRevision => [.revision intentRevision.revisionId]
  | .contextRevisionAdded _ _ revision =>
      .revision revision.revisionId ::
        revision.evidence.map fun evidence => .evidence evidence.evidenceId
  | .contextReviewed _ _ review => [.review review.reviewId]
  | .contextPublicationChanged _ _ publication => [.publication publication.publicationId]
  | .contextSpaceAssociationChanged association => [.association association.associationId]
  | .semanticConflictOpened _ conflict => [.conflict conflict.conflictId]
  | .semanticConflictResolutionAdded _ _ resolution => [.resolution resolution.resolutionId]
  | .engineeringReferenceRecorded _ _ reference => [.reference reference.referenceId]

def ReducerEvent.identities (event : ReducerEvent) : List Identity :=
  .event event.eventId :: event.entityIdentities

def definitionCount (events : List ReducerEvent) (identity : Identity) : Nat :=
  (events.flatMap ReducerEvent.identities).count identity

/-- No identity of the event is defined twice. -/
def ReducerEvent.UniqueIn (event : ReducerEvent) (events : List ReducerEvent) : Prop :=
  ∀ identity ∈ event.identities, definitionCount events identity = 1

/-! ### Counting definitions -/

theorem definitionCount_append (events others : List ReducerEvent) (identity : Identity) :
    definitionCount (events ++ others) identity =
      definitionCount events identity + definitionCount others identity := by
  simp [definitionCount]

theorem definitionCount_le_of_sublist {events others : List ReducerEvent}
    (sublist : events.Sublist others) (identity : Identity) :
    definitionCount events identity ≤ definitionCount others identity :=
  (sublist.flatMap _).count_le identity

theorem definitionCount_pos {events : List ReducerEvent} {identity : Identity} :
    0 < definitionCount events identity ↔ ∃ event ∈ events, identity ∈ event.identities := by
  rw [definitionCount, List.count_pos_iff, List.mem_flatMap]

@[simp]
theorem listed_nil {κ ν : Type} [DecidableEq κ] (key : κ) :
    BTreeMap.listed ([] : List (κ × ν)) key = [] :=
  rfl

@[simp]
theorem length_listed_singleton {κ ν : Type} [DecidableEq κ] (entry : κ × ν) (key : κ) :
    (BTreeMap.listed [entry] key).length = if entry.1 = key then 1 else 0 := by
  by_cases same : entry.1 = key <;> simp [BTreeMap.listed, same]

@[simp]
theorem count_map_evidence (evidence : List EvidenceSnapshot) (identity : Identity) :
    (evidence.map fun snapshot => Identity.evidence snapshot.evidenceId).count identity =
      match identity with
      | .evidence id => (evidence.map EvidenceSnapshot.evidenceId).count id
      | _ => 0 := by
  induction evidence with
  | nil => cases identity <;> rfl
  | cons snapshot evidence ih =>
      cases identity <;> simp_all [List.count_cons]

theorem length_listed_evidence (evidence : List EvidenceSnapshot) (eventId : EventId)
    (key : EvidenceId) :
    (BTreeMap.listed (evidence.map fun snapshot => (snapshot.evidenceId, eventId)) key).length =
      (evidence.map EvidenceSnapshot.evidenceId).count key := by
  induction evidence with
  | nil => rfl
  | cons snapshot evidence ih =>
      by_cases same : snapshot.evidenceId = key <;> simp_all [BTreeMap.listed]

/-! ### Definition tables and identities -/

/-- A definition table: what one event lists in it, and the identity that its
keys stand for.  No event lists a key more often than it defines the identity. -/
structure DefinitionTable (κ ν : Type) [DecidableEq κ] where
  entries : ReducerEvent → List (κ × ν)
  eventId : ν → EventId
  identity : κ → Identity
  sameEvent : ∀ event, ∀ entry ∈ entries event, eventId entry.2 = event.eventId
  counts : ∀ event key,
    (BTreeMap.listed (entries event) key).length ≤ event.identities.count (identity key)

namespace DefinitionTable

variable {kind : IdKind} {ν : Type} (table : DefinitionTable (OpaqueId kind) ν)

def collect (events : List ReducerEvent) : BTreeMap (OpaqueId kind) (List ν) :=
  .group (events.flatMap table.entries)

/-- Nothing but this table's entries defines its identities. -/
def Exact : Prop :=
  ∀ event key,
    event.identities.count (table.identity key) ≤ (BTreeMap.listed (table.entries event) key).length

variable {table} {events : List ReducerEvent} {key : OpaqueId kind} {node : ν}

theorem mem_listed :
    node ∈ BTreeMap.listed (events.flatMap table.entries) key ↔
      ∃ event ∈ events, (key, node) ∈ table.entries event := by
  simp [BTreeMap.listed]

theorem length_listed_cons (event : ReducerEvent) :
    (BTreeMap.listed ((event :: events).flatMap table.entries) key).length =
      (BTreeMap.listed (table.entries event) key).length +
        (BTreeMap.listed (events.flatMap table.entries) key).length := by
  simp [BTreeMap.listed]

theorem definitionCount_cons (event : ReducerEvent) (identity : Identity) :
    definitionCount (event :: events) identity =
      event.identities.count identity + definitionCount events identity := by
  simp [definitionCount]

theorem length_listed_le :
    (BTreeMap.listed (events.flatMap table.entries) key).length ≤
      definitionCount events (table.identity key) := by
  induction events with
  | nil => exact Nat.zero_le _
  | cons event events ih =>
      have here := table.counts event key
      rw [length_listed_cons, definitionCount_cons]
      omega

theorem length_listed_eq (exact : table.Exact) :
    (BTreeMap.listed (events.flatMap table.entries) key).length =
      definitionCount events (table.identity key) := by
  induction events with
  | nil => rfl
  | cons event events ih =>
      have atMost := table.counts event key
      have atLeast := exact event key
      rw [length_listed_cons, definitionCount_cons]
      omega

theorem exists_event (found : (table.collect events).unique.get? key = some node) :
    ∃ event ∈ events, (key, node) ∈ table.entries event := by
  have isListed := BTreeMap.get?_unique_group_eq_some.mp found
  apply mem_listed.mp
  rw [isListed]
  exact List.mem_singleton_self node

theorem eq_of_found {other : ν} (found : (table.collect events).unique.get? key = some node)
    {event : ReducerEvent} (member : event ∈ events) (isEntry : (key, other) ∈ table.entries event) :
    other = node := by
  have isListed := BTreeMap.get?_unique_group_eq_some.mp found
  have otherListed := mem_listed.mpr ⟨event, member, isEntry⟩
  rw [isListed] at otherListed
  exact List.mem_singleton.mp otherListed

theorem found_of_count {event : ReducerEvent} (member : event ∈ events)
    (isEntry : (key, node) ∈ table.entries event)
    (once : definitionCount events (table.identity key) = 1) :
    (table.collect events).unique.get? key = some node := by
  apply BTreeMap.get?_unique_group_eq_some.mpr
  have isListed := mem_listed.mpr ⟨event, member, isEntry⟩
  have lengthLe : (BTreeMap.listed (events.flatMap table.entries) key).length ≤
      definitionCount events (table.identity key) := length_listed_le
  rw [once] at lengthLe
  match found : BTreeMap.listed (events.flatMap table.entries) key with
  | [] => simp [found] at isListed
  | [other] =>
      rw [found, List.mem_singleton] at isListed
      rw [isListed]
  | _ :: _ :: _ => simp [found] at lengthLe

theorem identity_mem {event : ReducerEvent} (isEntry : (key, node) ∈ table.entries event) :
    table.identity key ∈ event.identities := by
  rw [← List.count_pos_iff]
  have atLeast : 0 < (BTreeMap.listed (table.entries event) key).length := by
    apply List.length_pos_of_mem (a := node)
    simp [BTreeMap.listed, isEntry]
  exact lt_of_lt_of_le atLeast (table.counts event key)

theorem entry_of_identity (exact : table.Exact) {event : ReducerEvent}
    (member : table.identity key ∈ event.identities) :
    ∃ node, (key, node) ∈ table.entries event := by
  have positive := lt_of_lt_of_le (List.count_pos_iff.mpr member) (exact event key)
  obtain ⟨node, isListed⟩ := List.exists_mem_of_length_pos positive
  exact ⟨node, by simpa [BTreeMap.listed] using isListed⟩

theorem count_of_found (exact : table.Exact)
    (found : (table.collect events).unique.get? key = some node) :
    definitionCount events (table.identity key) = 1 := by
  rw [← length_listed_eq exact, BTreeMap.get?_unique_group_eq_some.mp found]
  rfl

theorem get?_duplicated {values : List ν} :
    (duplicated (table.collect events)).get? key = some values ↔
      1 < values.length ∧ BTreeMap.listed (events.flatMap table.entries) key = values := by
  rw [duplicated, BTreeMap.get?_filter_eq_some, collect, BTreeMap.get?_group_eq_some]
  constructor
  · rintro ⟨⟨-, isListed⟩, several⟩
    exact ⟨several, isListed⟩
  · rintro ⟨several, isListed⟩
    refine ⟨⟨?_, isListed⟩, several⟩
    rintro rfl
    simp at several

/-- The events of duplicate definitions are those with an identity that the
table lists more than once. -/
theorem mem_duplicateEventIds {id : EventId} :
    id ∈ duplicateEventIds (table.collect events) table.eventId ↔
      ∃ event ∈ events, event.eventId = id ∧ ∃ entry ∈ table.entries event,
        1 < (BTreeMap.listed (events.flatMap table.entries) entry.1).length := by
  simp only [duplicateEventIds, BTreeMap.mem_flatMap, get?_duplicated, eventIds,
    List.mem_toFinset, List.mem_map]
  constructor
  · rintro ⟨key, values, ⟨several, isListed⟩, node, member, rfl⟩
    rw [← isListed] at member several
    obtain ⟨event, isEvent, isEntry⟩ := mem_listed.mp member
    exact ⟨event, isEvent, (table.sameEvent event _ isEntry).symm, (key, node), isEntry, several⟩
  · rintro ⟨event, isEvent, rfl, ⟨key, node⟩, isEntry, several⟩
    refine ⟨key, _, ⟨several, rfl⟩, node, mem_listed.mpr ⟨event, isEvent, isEntry⟩, ?_⟩
    exact table.sameEvent event _ isEntry

theorem exists_of_mem_duplicateEventIds {id : EventId}
    (member : id ∈ duplicateEventIds (table.collect events) table.eventId) :
    ∃ event ∈ events, event.eventId = id ∧ ∃ key, table.identity key ∈ event.identities ∧
      1 < definitionCount events (table.identity key) := by
  obtain ⟨event, isEvent, sameId, ⟨key, node⟩, isEntry, several⟩ :=
    mem_duplicateEventIds.mp member
  exact ⟨event, isEvent, sameId, key, identity_mem isEntry,
    lt_of_lt_of_le several length_listed_le⟩

theorem mem_duplicateEventIds_of_exact (exact : table.Exact) {event : ReducerEvent}
    (isEvent : event ∈ events) (member : table.identity key ∈ event.identities)
    (several : 1 < definitionCount events (table.identity key)) :
    event.eventId ∈ duplicateEventIds (table.collect events) table.eventId := by
  obtain ⟨node, isEntry⟩ := entry_of_identity exact member
  rw [← length_listed_eq exact] at several
  exact mem_duplicateEventIds.mpr ⟨event, isEvent, rfl, (key, node), isEntry, several⟩

theorem blamed_duplicateDiagnostics (code : ReducerDiagnosticCode)
    (message : OpaqueId kind → String) (definitions : BTreeMap (OpaqueId kind) (List ν))
    (get : ν → EventId) :
    blamed (duplicateDiagnostics code message definitions get) =
      duplicateEventIds definitions get := by
  ext id
  simp only [duplicateDiagnostics, mem_blamed_flatMap, blamed_singleton, duplicateEventIds,
    BTreeMap.mem_flatMap]

end DefinitionTable

/-! ### The fifteen tables -/

def candidateTable : DefinitionTable CandidateId CandidateNode where
  entries event := (candidateEntry event).toList
  eventId := CandidateNode.eventId
  identity := .candidate
  sameEvent := by
    rintro ⟨eventId, payload⟩ entry
    cases payload <;> simp +contextual [candidateEntry]
  counts := by
    rintro ⟨eventId, payload⟩ key
    cases payload <;>
      simp [candidateEntry, ReducerEvent.identities, ReducerEvent.entityIdentities, List.count_cons]

theorem candidateTable_exact : candidateTable.Exact := by
  rintro ⟨eventId, payload⟩ key
  cases payload <;>
    simp [candidateTable, candidateEntry, ReducerEvent.identities, ReducerEvent.entityIdentities,
      List.count_cons]

def submissionTable : DefinitionTable SubmissionId CandidateNode where
  entries event := (submissionEntry event).toList
  eventId := CandidateNode.eventId
  identity := .submission
  sameEvent := by
    rintro ⟨eventId, payload⟩ entry
    cases payload <;> simp +contextual [submissionEntry]
  counts := by
    rintro ⟨eventId, payload⟩ key
    cases payload <;>
      simp [submissionEntry, ReducerEvent.identities, ReducerEvent.entityIdentities, List.count_cons]

theorem submissionTable_exact : submissionTable.Exact := by
  rintro ⟨eventId, payload⟩ key
  cases payload <;>
    simp [submissionTable, submissionEntry, ReducerEvent.identities, ReducerEvent.entityIdentities,
      List.count_cons]

def confirmationTable : DefinitionTable ConfirmationId CandidateConfirmationNode where
  entries event := (confirmationEntry event).toList
  eventId := CandidateConfirmationNode.eventId
  identity := .confirmation
  sameEvent := by
    rintro ⟨eventId, payload⟩ entry
    cases payload <;> simp +contextual [confirmationEntry]
  counts := by
    rintro ⟨eventId, payload⟩ key
    cases payload <;>
      simp [confirmationEntry, ReducerEvent.identities, ReducerEvent.entityIdentities, List.count_cons]

theorem confirmationTable_exact : confirmationTable.Exact := by
  rintro ⟨eventId, payload⟩ key
  cases payload <;>
    simp [confirmationTable, confirmationEntry, ReducerEvent.identities, ReducerEvent.entityIdentities,
      List.count_cons]

def confirmationByCandidateTable : DefinitionTable CandidateId CandidateConfirmationNode where
  entries event := (confirmationByCandidateEntry event).toList
  eventId := CandidateConfirmationNode.eventId
  identity := .confirmedCandidate
  sameEvent := by
    rintro ⟨eventId, payload⟩ entry
    cases payload <;> simp +contextual [confirmationByCandidateEntry]
  counts := by
    rintro ⟨eventId, payload⟩ key
    cases payload <;>
      simp [confirmationByCandidateEntry, ReducerEvent.identities, ReducerEvent.entityIdentities, List.count_cons]

theorem confirmationByCandidateTable_exact : confirmationByCandidateTable.Exact := by
  rintro ⟨eventId, payload⟩ key
  cases payload <;>
    simp [confirmationByCandidateTable, confirmationByCandidateEntry, ReducerEvent.identities, ReducerEvent.entityIdentities,
      List.count_cons]

def associationTable : DefinitionTable SpaceAssociationId ContextSpaceAssociationNode where
  entries event := (associationEntry event).toList
  eventId := ContextSpaceAssociationNode.eventId
  identity := .association
  sameEvent := by
    rintro ⟨eventId, payload⟩ entry
    cases payload <;> simp +contextual [associationEntry]
  counts := by
    rintro ⟨eventId, payload⟩ key
    cases payload <;>
      simp [associationEntry, ReducerEvent.identities, ReducerEvent.entityIdentities, List.count_cons]

theorem associationTable_exact : associationTable.Exact := by
  rintro ⟨eventId, payload⟩ key
  cases payload <;>
    simp [associationTable, associationEntry, ReducerEvent.identities, ReducerEvent.entityIdentities,
      List.count_cons]

def spaceCreationTable : DefinitionTable SpaceId IntentNode where
  entries event := (spaceCreationEntry event).toList
  eventId := IntentNode.eventId
  identity := .spaceCreation
  sameEvent := by
    rintro ⟨eventId, payload⟩ entry
    cases payload <;> simp +contextual [spaceCreationEntry]
  counts := by
    rintro ⟨eventId, payload⟩ key
    cases payload <;>
      simp [spaceCreationEntry, ReducerEvent.identities, ReducerEvent.entityIdentities, List.count_cons]

theorem spaceCreationTable_exact : spaceCreationTable.Exact := by
  rintro ⟨eventId, payload⟩ key
  cases payload <;>
    simp [spaceCreationTable, spaceCreationEntry, ReducerEvent.identities, ReducerEvent.entityIdentities,
      List.count_cons]

def intentTable : DefinitionTable RevisionId IntentNode where
  entries event := (intentEntry event).toList
  eventId := IntentNode.eventId
  identity := .revision
  sameEvent := by
    rintro ⟨eventId, payload⟩ entry
    cases payload <;> simp +contextual [intentEntry]
  counts := by
    rintro ⟨eventId, payload⟩ key
    cases payload <;>
      simp [intentEntry, ReducerEvent.identities, ReducerEvent.entityIdentities, List.count_cons]

def contextTable : DefinitionTable RevisionId ContextNode where
  entries event := (contextEntry event).toList
  eventId := ContextNode.eventId
  identity := .revision
  sameEvent := by
    rintro ⟨eventId, payload⟩ entry
    cases payload <;> simp +contextual [contextEntry]
  counts := by
    rintro ⟨eventId, payload⟩ key
    cases payload <;>
      simp [contextEntry, ReducerEvent.identities, ReducerEvent.entityIdentities, List.count_cons]

def reviewTable : DefinitionTable ReviewId ReviewNode where
  entries event := (reviewEntry event).toList
  eventId := ReviewNode.eventId
  identity := .review
  sameEvent := by
    rintro ⟨eventId, payload⟩ entry
    cases payload <;> simp +contextual [reviewEntry]
  counts := by
    rintro ⟨eventId, payload⟩ key
    cases payload <;>
      simp [reviewEntry, ReducerEvent.identities, ReducerEvent.entityIdentities, List.count_cons]

theorem reviewTable_exact : reviewTable.Exact := by
  rintro ⟨eventId, payload⟩ key
  cases payload <;>
    simp [reviewTable, reviewEntry, ReducerEvent.identities, ReducerEvent.entityIdentities,
      List.count_cons]

def publicationTable : DefinitionTable PublicationId PublicationNode where
  entries event := (publicationEntry event).toList
  eventId := PublicationNode.eventId
  identity := .publication
  sameEvent := by
    rintro ⟨eventId, payload⟩ entry
    cases payload <;> simp +contextual [publicationEntry]
  counts := by
    rintro ⟨eventId, payload⟩ key
    cases payload <;>
      simp [publicationEntry, ReducerEvent.identities, ReducerEvent.entityIdentities, List.count_cons]

theorem publicationTable_exact : publicationTable.Exact := by
  rintro ⟨eventId, payload⟩ key
  cases payload <;>
    simp [publicationTable, publicationEntry, ReducerEvent.identities, ReducerEvent.entityIdentities,
      List.count_cons]

def conflictTable : DefinitionTable ConflictId ConflictNode where
  entries event := (conflictEntry event).toList
  eventId := ConflictNode.eventId
  identity := .conflict
  sameEvent := by
    rintro ⟨eventId, payload⟩ entry
    cases payload <;> simp +contextual [conflictEntry]
  counts := by
    rintro ⟨eventId, payload⟩ key
    cases payload <;>
      simp [conflictEntry, ReducerEvent.identities, ReducerEvent.entityIdentities, List.count_cons]

theorem conflictTable_exact : conflictTable.Exact := by
  rintro ⟨eventId, payload⟩ key
  cases payload <;>
    simp [conflictTable, conflictEntry, ReducerEvent.identities, ReducerEvent.entityIdentities,
      List.count_cons]

def resolutionTable : DefinitionTable ResolutionId ResolutionNode where
  entries event := (resolutionEntry event).toList
  eventId := ResolutionNode.eventId
  identity := .resolution
  sameEvent := by
    rintro ⟨eventId, payload⟩ entry
    cases payload <;> simp +contextual [resolutionEntry]
  counts := by
    rintro ⟨eventId, payload⟩ key
    cases payload <;>
      simp [resolutionEntry, ReducerEvent.identities, ReducerEvent.entityIdentities, List.count_cons]

theorem resolutionTable_exact : resolutionTable.Exact := by
  rintro ⟨eventId, payload⟩ key
  cases payload <;>
    simp [resolutionTable, resolutionEntry, ReducerEvent.identities, ReducerEvent.entityIdentities,
      List.count_cons]

def referenceTable : DefinitionTable ReferenceId EngineeringReferenceNode where
  entries event := (referenceEntry event).toList
  eventId := EngineeringReferenceNode.eventId
  identity := .reference
  sameEvent := by
    rintro ⟨eventId, payload⟩ entry
    cases payload <;> simp +contextual [referenceEntry]
  counts := by
    rintro ⟨eventId, payload⟩ key
    cases payload <;>
      simp [referenceEntry, ReducerEvent.identities, ReducerEvent.entityIdentities, List.count_cons]

theorem referenceTable_exact : referenceTable.Exact := by
  rintro ⟨eventId, payload⟩ key
  cases payload <;>
    simp [referenceTable, referenceEntry, ReducerEvent.identities, ReducerEvent.entityIdentities,
      List.count_cons]

def evidenceTable : DefinitionTable EvidenceId EventId where
  entries := evidenceEntries
  eventId := id
  identity := .evidence
  sameEvent := by
    rintro ⟨eventId, payload⟩ entry isEntry
    cases payload <;> simp [evidenceEntries] at isEntry
    obtain ⟨snapshot, -, rfl⟩ := isEntry
    rfl
  counts := by
    rintro ⟨eventId, payload⟩ key
    cases payload <;>
      simp [evidenceEntries, ReducerEvent.identities, ReducerEvent.entityIdentities,
        length_listed_evidence]

theorem evidenceTable_exact : evidenceTable.Exact := by
  rintro ⟨eventId, payload⟩ key
  cases payload <;>
    simp [evidenceTable, evidenceEntries, ReducerEvent.identities,
      ReducerEvent.entityIdentities, length_listed_evidence]

def eventTable : DefinitionTable EventId ReducerEvent where
  entries event := [(event.eventId, event)]
  eventId := ReducerEvent.eventId
  identity := .event
  sameEvent := by simp
  counts := by
    rintro ⟨eventId, payload⟩ key
    cases payload <;>
      simp [ReducerEvent.identities, ReducerEvent.entityIdentities, List.count_cons]

theorem eventTable_exact : eventTable.Exact := by
  rintro ⟨eventId, payload⟩ key
  cases payload <;>
    simp [eventTable, ReducerEvent.identities, ReducerEvent.entityIdentities, List.count_cons]

/-- The first pass of the reducer collects these tables. -/
theorem collectDefinitions_eq (events : List ReducerEvent) :
    collectDefinitions events =
      { eventsById := eventTable.collect events
        candidates := candidateTable.collect events
        submissions := submissionTable.collect events
        confirmations := confirmationTable.collect events
        confirmationsByCandidate := confirmationByCandidateTable.collect events
        associations := associationTable.collect events
        spaceCreations := spaceCreationTable.collect events
        intents := intentTable.collect events
        contexts := contextTable.collect events
        reviews := reviewTable.collect events
        publications := publicationTable.collect events
        conflicts := conflictTable.collect events
        resolutions := resolutionTable.collect events
        references := referenceTable.collect events
        evidence := evidenceTable.collect events
        contextOwners := (BTreeMap.group (events.flatMap ownerEntries)).map List.toFinset } := by
  simp only [collectDefinitions, List.filterMap_eq_flatMap_toList, List.map_eq_flatMap]
  rfl

theorem length_revisions (events : List ReducerEvent) (id : RevisionId) :
    (BTreeMap.listed (events.flatMap intentTable.entries) id).length +
      (BTreeMap.listed (events.flatMap contextTable.entries) id).length =
      definitionCount events (.revision id) := by
  induction events with
  | nil => rfl
  | cons event events ih =>
      have here : (BTreeMap.listed (intentTable.entries event) id).length +
          (BTreeMap.listed (contextTable.entries event) id).length =
          event.identities.count (.revision id) := by
        obtain ⟨eventId, payload⟩ := event
        cases payload <;>
          simp [intentTable, contextTable, intentEntry, contextEntry, ReducerEvent.identities,
            ReducerEvent.entityIdentities, List.count_cons]
      rw [DefinitionTable.length_listed_cons, DefinitionTable.length_listed_cons,
        DefinitionTable.definitionCount_cons]
      omega

theorem mem_crossKindRevisions {events : List ReducerEvent} {id : EventId} :
    id ∈ (crossKindRevisions (collectDefinitions events)).flatMap (fun _ ids => ids) ↔
      ∃ key, BTreeMap.listed (events.flatMap intentTable.entries) key ≠ [] ∧
        BTreeMap.listed (events.flatMap contextTable.entries) key ≠ [] ∧
        ∃ event ∈ events, event.eventId = id ∧
          ((∃ node, (key, node) ∈ intentTable.entries event) ∨
            ∃ node, (key, node) ∈ contextTable.entries event) := by
  simp only [crossKindRevisions, collectDefinitions_eq, BTreeMap.mem_flatMap,
    BTreeMap.get?_filterMap, Option.bind_eq_some_iff, Option.map_eq_some_iff,
    DefinitionTable.collect, BTreeMap.get?_group_eq_some]
  constructor
  · rintro ⟨key, _, ⟨intents, ⟨intentsNotNil, rfl⟩, contexts, ⟨contextsNotNil, rfl⟩, rfl⟩, member⟩
    refine ⟨key, intentsNotNil, contextsNotNil, ?_⟩
    simp only [eventIds, Finset.mem_union, List.mem_toFinset, List.mem_map,
      DefinitionTable.mem_listed] at member
    rcases member with ⟨node, ⟨event, isEvent, isEntry⟩, rfl⟩ | ⟨node, ⟨event, isEvent, isEntry⟩, rfl⟩
    · exact ⟨event, isEvent, (intentTable.sameEvent event _ isEntry).symm, .inl ⟨node, isEntry⟩⟩
    · exact ⟨event, isEvent, (contextTable.sameEvent event _ isEntry).symm, .inr ⟨node, isEntry⟩⟩
  · rintro ⟨key, intentsNotNil, contextsNotNil, event, isEvent, rfl, isEntry⟩
    refine ⟨key, _, ⟨_, ⟨intentsNotNil, rfl⟩, _, ⟨contextsNotNil, rfl⟩, rfl⟩, ?_⟩
    simp only [eventIds, Finset.mem_union, List.mem_toFinset, List.mem_map,
      DefinitionTable.mem_listed]
    rcases isEntry with ⟨node, isEntry⟩ | ⟨node, isEntry⟩
    · exact .inl ⟨node, ⟨event, isEvent, isEntry⟩, intentTable.sameEvent event _ isEntry⟩
    · exact .inr ⟨node, ⟨event, isEvent, isEntry⟩, contextTable.sameEvent event _ isEntry⟩

/-- An event of this ID has an identity, accepted by `select`, that is defined
more than once. -/
def Repeats (events : List ReducerEvent) (select : Identity → Bool) (id : EventId) : Prop :=
  ∃ event ∈ events, event.eventId = id ∧ ∃ identity ∈ event.identities,
    select identity = true ∧ 1 < definitionCount events identity

theorem repeats_of_duplicate {kind : IdKind} {ν : Type} {events : List ReducerEvent}
    {select : Identity → Bool} (table : DefinitionTable (OpaqueId kind) ν)
    (selected : ∀ key, select (table.identity key) = true) {id : EventId}
    (member : id ∈ duplicateEventIds (table.collect events) table.eventId) :
    Repeats events select id := by
  obtain ⟨event, isEvent, sameId, key, isIdentity, several⟩ :=
    DefinitionTable.exists_of_mem_duplicateEventIds member
  exact ⟨event, isEvent, sameId, table.identity key, isIdentity, selected key, several⟩

theorem repeats_of_crossKind {events : List ReducerEvent} {select : Identity → Bool}
    (selected : ∀ key, select (.revision key) = true) {id : EventId}
    (member : id ∈ (crossKindRevisions (collectDefinitions events)).flatMap fun _ ids => ids) :
    Repeats events select id := by
  obtain ⟨key, intentsNotNil, contextsNotNil, event, isEvent, sameId, isEntry⟩ :=
    mem_crossKindRevisions.mp member
  have total := length_revisions events key
  have intentsPos := List.length_pos_iff.mpr intentsNotNil
  have contextsPos := List.length_pos_iff.mpr contextsNotNil
  refine ⟨event, isEvent, sameId, .revision key, ?_, selected key, by omega⟩
  rcases isEntry with ⟨node, isEntry⟩ | ⟨node, isEntry⟩
  · exact intentTable.identity_mem isEntry
  · exact contextTable.identity_mem isEntry

theorem repeats_of_duplicatedEvent {events : List ReducerEvent} {select : Identity → Bool}
    (selected : ∀ key, select (.event key) = true) {id : EventId}
    (member : id ∈ (duplicated (eventTable.collect events)).keys) : Repeats events select id := by
  obtain ⟨values, found⟩ := BTreeMap.mem_keys_iff.mp member
  obtain ⟨several, isListed⟩ := DefinitionTable.get?_duplicated.mp found
  obtain ⟨event, inValues⟩ := List.exists_mem_of_length_pos (by omega : 0 < values.length)
  rw [← isListed] at inValues several
  obtain ⟨owner, isEvent, isEntry⟩ := DefinitionTable.mem_listed.mp inValues
  have sameId : id = owner.eventId := by
    simp only [eventTable, List.mem_singleton, Prod.mk.injEq] at isEntry
    exact isEntry.1
  refine ⟨owner, isEvent, sameId.symm, .event id, eventTable.identity_mem isEntry, selected id, ?_⟩
  exact lt_of_lt_of_le several DefinitionTable.length_listed_le

theorem revision_cases {events : List ReducerEvent} {event : ReducerEvent}
    (isEvent : event ∈ events) {key : RevisionId} (member : .revision key ∈ event.identities)
    (several : 1 < definitionCount events (.revision key)) :
    event.eventId ∈ duplicateEventIds (intentTable.collect events) intentTable.eventId ∨
      event.eventId ∈ duplicateEventIds (contextTable.collect events) contextTable.eventId ∨
      event.eventId ∈ (crossKindRevisions (collectDefinitions events)).flatMap fun _ ids => ids := by
  have total := length_revisions events key
  have isEntry : (∃ node, (key, node) ∈ intentTable.entries event) ∨
      ∃ node, (key, node) ∈ contextTable.entries event := by
    obtain ⟨eventId, payload⟩ := event
    cases payload <;>
      simp [intentTable, contextTable, intentEntry, contextEntry, ReducerEvent.identities,
        ReducerEvent.entityIdentities] at member ⊢
    all_goals exact member.symm ▸ rfl
  by_cases cross : BTreeMap.listed (events.flatMap intentTable.entries) key ≠ [] ∧
      BTreeMap.listed (events.flatMap contextTable.entries) key ≠ []
  · right; right
    exact mem_crossKindRevisions.mpr ⟨key, cross.1, cross.2, event, isEvent, rfl, isEntry⟩
  rcases isEntry with ⟨node, isEntry⟩ | ⟨node, isEntry⟩
  · left
    have isListed := DefinitionTable.mem_listed.mpr ⟨event, isEvent, isEntry⟩
    have noContexts : BTreeMap.listed (events.flatMap contextTable.entries) key = [] := by
      by_contra notNil
      exact cross ⟨List.ne_nil_of_mem isListed, notNil⟩
    rw [noContexts, List.length_nil, Nat.add_zero] at total
    exact DefinitionTable.mem_duplicateEventIds.mpr
      ⟨event, isEvent, rfl, (key, node), isEntry, total ▸ several⟩
  · right; left
    have isListed := DefinitionTable.mem_listed.mpr ⟨event, isEvent, isEntry⟩
    have noIntents : BTreeMap.listed (events.flatMap intentTable.entries) key = [] := by
      by_contra notNil
      exact cross ⟨notNil, List.ne_nil_of_mem isListed⟩
    rw [noIntents, List.length_nil, Nat.zero_add] at total
    exact DefinitionTable.mem_duplicateEventIds.mpr
      ⟨event, isEvent, rfl, (key, node), isEntry, total ▸ several⟩

theorem duplicatedEvent_of_repeats {events : List ReducerEvent} {event : ReducerEvent}
    {key : EventId} (member : .event key ∈ event.identities)
    (several : 1 < definitionCount events (.event key)) :
    event.eventId ∈ (duplicated (eventTable.collect events)).keys := by
  have sameKey : event.eventId = key := by
    obtain ⟨eventId, payload⟩ := event
    cases payload <;>
      simp [ReducerEvent.identities, ReducerEvent.entityIdentities] at member ⊢
    all_goals exact member.symm
  rw [sameKey]
  have lengthEq : (BTreeMap.listed (events.flatMap eventTable.entries) key).length =
      definitionCount events (eventTable.identity key) :=
    DefinitionTable.length_listed_eq eventTable_exact
  change 1 < definitionCount events (eventTable.identity key) at several
  rw [← lengthEq] at several
  exact BTreeMap.mem_keys_of_get? (DefinitionTable.get?_duplicated.mpr ⟨several, rfl⟩)

theorem mem_invalidEventIds_cases {events : List ReducerEvent} {id : EventId} :
    id ∈ invalidEventIds (collectDefinitions events) ↔
      id ∈ (duplicated (eventTable.collect events)).keys ∨
      id ∈ duplicateEventIds (intentTable.collect events) intentTable.eventId ∨
      id ∈ duplicateEventIds (candidateTable.collect events) candidateTable.eventId ∨
      id ∈ duplicateEventIds (submissionTable.collect events) submissionTable.eventId ∨
      id ∈ duplicateEventIds (confirmationTable.collect events) confirmationTable.eventId ∨
      id ∈ duplicateEventIds (confirmationByCandidateTable.collect events)
        confirmationByCandidateTable.eventId ∨
      id ∈ duplicateEventIds (associationTable.collect events) associationTable.eventId ∨
      id ∈ duplicateEventIds (contextTable.collect events) contextTable.eventId ∨
      id ∈ ((crossKindRevisions (collectDefinitions events)).flatMap fun _ ids => ids) ∨
      id ∈ duplicateEventIds (reviewTable.collect events) reviewTable.eventId ∨
      id ∈ duplicateEventIds (publicationTable.collect events) publicationTable.eventId ∨
      id ∈ duplicateEventIds (evidenceTable.collect events) evidenceTable.eventId ∨
      id ∈ duplicateEventIds (conflictTable.collect events) conflictTable.eventId ∨
      id ∈ duplicateEventIds (resolutionTable.collect events) resolutionTable.eventId := by
  rw [collectDefinitions_eq]
  simp only [invalidEventIds, Finset.mem_union, or_assoc]
  rfl

/-- An event is invalid exactly when it repeats an identity that invalidates. -/
theorem mem_invalidEventIds {events : List ReducerEvent} {id : EventId} :
    id ∈ invalidEventIds (collectDefinitions events) ↔
      Repeats events Identity.invalidates id := by
  rw [mem_invalidEventIds_cases]
  constructor
  · intro member
    rcases member with member | member | member | member | member | member | member | member |
      member | member | member | member | member | member
    · exact repeats_of_duplicatedEvent (fun _ => rfl) member
    · exact repeats_of_duplicate intentTable (fun _ => rfl) member
    · exact repeats_of_duplicate candidateTable (fun _ => rfl) member
    · exact repeats_of_duplicate submissionTable (fun _ => rfl) member
    · exact repeats_of_duplicate confirmationTable (fun _ => rfl) member
    · exact repeats_of_duplicate confirmationByCandidateTable (fun _ => rfl) member
    · exact repeats_of_duplicate associationTable (fun _ => rfl) member
    · exact repeats_of_duplicate contextTable (fun _ => rfl) member
    · exact repeats_of_crossKind (fun _ => rfl) member
    · exact repeats_of_duplicate reviewTable (fun _ => rfl) member
    · exact repeats_of_duplicate publicationTable (fun _ => rfl) member
    · exact repeats_of_duplicate evidenceTable (fun _ => rfl) member
    · exact repeats_of_duplicate conflictTable (fun _ => rfl) member
    · exact repeats_of_duplicate resolutionTable (fun _ => rfl) member
  · rintro ⟨event, isEvent, rfl, identity, member, invalidates, several⟩
    have inTable {kind : IdKind} {ν : Type} (table : DefinitionTable (OpaqueId kind) ν)
        (exact : table.Exact) (key : OpaqueId kind) (same : table.identity key = identity) :
        event.eventId ∈ duplicateEventIds (table.collect events) table.eventId :=
      DefinitionTable.mem_duplicateEventIds_of_exact exact isEvent (same ▸ member)
        (same ▸ several)
    cases identity with
    | spaceCreation key => cases invalidates
    | reference key => cases invalidates
    | event key => simp only [duplicatedEvent_of_repeats member several, true_or]
    | revision key =>
        rcases revision_cases isEvent member several with found | found | found <;>
          simp only [found, true_or, or_true]
    | candidate key =>
        simp only [inTable candidateTable candidateTable_exact key rfl, true_or, or_true]
    | submission key =>
        simp only [inTable submissionTable submissionTable_exact key rfl, true_or, or_true]
    | confirmation key =>
        simp only [inTable confirmationTable confirmationTable_exact key rfl, true_or, or_true]
    | confirmedCandidate key =>
        simp only [inTable confirmationByCandidateTable confirmationByCandidateTable_exact key rfl,
          true_or, or_true]
    | association key =>
        simp only [inTable associationTable associationTable_exact key rfl, true_or, or_true]
    | evidence key =>
        simp only [inTable evidenceTable evidenceTable_exact key rfl, true_or, or_true]
    | review key =>
        simp only [inTable reviewTable reviewTable_exact key rfl, true_or, or_true]
    | publication key =>
        simp only [inTable publicationTable publicationTable_exact key rfl, true_or, or_true]
    | conflict key =>
        simp only [inTable conflictTable conflictTable_exact key rfl, true_or, or_true]
    | resolution key =>
        simp only [inTable resolutionTable resolutionTable_exact key rfl, or_true]

theorem mem_blamed_definitionDiagnostics_cases {events : List ReducerEvent} {id : EventId} :
    id ∈ blamed (definitionDiagnostics (collectDefinitions events)) ↔
      id ∈ invalidEventIds (collectDefinitions events) ∨
      id ∈ duplicateEventIds (referenceTable.collect events) referenceTable.eventId ∨
      id ∈ duplicateEventIds (spaceCreationTable.collect events) spaceCreationTable.eventId := by
  have duplicatedEvents : ∀ table : BTreeMap EventId (List ReducerEvent), id ∈ blamed
      ((duplicated table).flatMap fun id _ =>
        {⟨.duplicateEventId, toString id, {id}, s!"event ID {id} has multiple definitions"⟩}) ↔
      id ∈ (duplicated table).keys := by
    intro table
    simp [mem_blamed_flatMap, BTreeMap.mem_keys_iff]
  have crossKind : ∀ definitions : Definitions, id ∈ blamed
      ((crossKindRevisions definitions).flatMap fun id ids =>
        {⟨.duplicateRevisionId, toString id, ids,
          s!"revision ID {id} is defined by multiple aggregate kinds"⟩}) ↔
      id ∈ (crossKindRevisions definitions).flatMap fun _ ids => ids := by
    intro definitions
    simp [mem_blamed_flatMap]
  rw [mem_invalidEventIds_cases, collectDefinitions_eq]
  simp only [definitionDiagnostics, blamed_union, Finset.mem_union, duplicatedEvents, crossKind,
    DefinitionTable.blamed_duplicateDiagnostics, or_assoc]
  rfl

theorem mem_blamed_definitionDiagnostics {events : List ReducerEvent} {id : EventId} :
    id ∈ blamed (definitionDiagnostics (collectDefinitions events)) ↔
      Repeats events (fun _ => true) id := by
  rw [mem_blamed_definitionDiagnostics_cases, mem_invalidEventIds]
  constructor
  · rintro (⟨event, isEvent, sameId, identity, member, -, several⟩ | member | member)
    · exact ⟨event, isEvent, sameId, identity, member, rfl, several⟩
    · exact repeats_of_duplicate referenceTable (fun _ => rfl) member
    · exact repeats_of_duplicate spaceCreationTable (fun _ => rfl) member
  · rintro ⟨event, isEvent, rfl, identity, member, -, several⟩
    by_cases invalidates : identity.invalidates = true
    · exact .inl ⟨event, isEvent, rfl, identity, member, invalidates, several⟩
    · cases identity with
      | reference key =>
          right; left
          exact DefinitionTable.mem_duplicateEventIds_of_exact referenceTable_exact isEvent
            member several
      | spaceCreation key =>
          right; right
          exact DefinitionTable.mem_duplicateEventIds_of_exact spaceCreationTable_exact isEvent
            member several
      | _ => exact absurd rfl invalidates

end SharedContext
