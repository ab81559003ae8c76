import SharedContext.Domain.Reservation
import SharedContext.EventSchema.Payload

/-!
# The events of a confirmation plan

A reserved plan materializes into its exact immutable events.  The provenance
of the decision only reaches the annotations, which the reducer never reads.
-/

namespace SharedContext

/-- A canonical `bat_` UUIDv4. -/
def validBatchId (value : String) : Bool :=
  "bat_".toList.isPrefixOf value.toList &&
    let uuid := value.toList.drop 4
    let hyphens := [8, 13, 18, 23]
    uuid.length == 36 && hyphens.all (fun index => uuid[index]? == some '-') &&
      uuid[14]? == some '4' &&
      (uuid[19]? == some '8' || uuid[19]? == some '9' || uuid[19]? == some 'a' ||
        uuid[19]? == some 'b') &&
      uuid.zipIdx.all fun (character, index) =>
        hyphens.contains index || character.isDigit || ('a' ≤ character && character ≤ 'f')

/-- An event under a reserved identity, after the payload-local check. -/
def exactEvent (eventId : EventId) (payload : EventPayload) : Result ReducerEvent := do
  payload.validate
  pure ⟨eventId, payload⟩

def exactEvents : List (EventId × EventPayload) → Result (List ReducerEvent)
  | [] => pure []
  | (eventId, payload) :: rest => do
      let event ← exactEvent eventId payload
      let events ← exactEvents rest
      pure (event :: events)

namespace CandidateConfirmationPlan

variable (plan : CandidateConfirmationPlan)

def spaceFacts : Result (List (EventId × EventPayload)) :=
  match plan.newSpace with
  | none => pure []
  | some newSpace =>
      match plan.eventIds.spaceCreatedEventId with
      | none => throw (invalid "Confirmation plan lacks new Space Event ID")
      | some eventId =>
          pure [(eventId, .spaceCreated newSpace.spaceId newSpace.intentRevision)]

def contextFacts : List (EventId × EventPayload) :=
  [(plan.eventIds.contextRevisionEventId,
      .contextRevisionAdded plan.confirmation.primarySpaceId plan.resultContextId
        plan.resultRevision),
    (plan.eventIds.spaceAssociationEventId,
      .contextSpaceAssociationChanged plan.spaceAssociation),
    (plan.eventIds.publicationEventId,
      .contextPublicationChanged plan.confirmation.primarySpaceId plan.resultContextId
        plan.publication)]

def referenceFacts : List (EventId × EventPayload) :=
  (plan.eventIds.engineeringReferenceEventIds.zip plan.engineeringReferences).map
    fun (eventId, reference) =>
      (eventId, .engineeringReferenceRecorded plan.resultContextId
        plan.resultRevision.revisionId reference)

def conflictFacts : List (EventId × EventPayload) :=
  (plan.eventIds.semanticConflictEventIds.zip plan.openedConflicts).map
    fun (eventId, opening) =>
      (eventId, .semanticConflictOpened opening.spaceId opening.conflict)

def confirmationFact : EventId × EventPayload :=
  (plan.eventIds.confirmationEventId, .candidateConfirmed plan.confirmation)

end CandidateConfirmationPlan

variable (hasher : PlanHasher)

/-- Materializes one reserved plan into its exact atomic events. -/
def fromCandidateConfirmationPlan (plan : CandidateConfirmationPlan) (writerBatchId : String) :
    Result (List ReducerEvent) := do
  plan.validate hasher
  Result.require (validBatchId writerBatchId = true)
    (invalid "writer batch ID must be a canonical bat_ UUIDv4")
  let spaceFacts ← plan.spaceFacts
  exactEvents (spaceFacts ++ plan.contextFacts ++ plan.referenceFacts ++ plan.conflictFacts ++
    [plan.confirmationFact])

theorem exactEvents_eq_ok {facts : List (EventId × EventPayload)} {events : List ReducerEvent} :
    exactEvents facts = .ok events ↔
      (∀ fact ∈ facts, fact.2.validate = .ok ()) ∧
        events = facts.map fun fact => ⟨fact.1, fact.2⟩ := by
  induction facts generalizing events with
  | nil =>
      simp only [exactEvents, Result.pure_eq_ok]
      simp [eq_comm]
  | cons fact facts ih =>
      simp only [exactEvents, exactEvent, Result.bind_eq_ok, Result.exists_unit,
        Result.pure_eq_ok, ih, List.forall_mem_cons, List.map_cons]
      constructor
      · rintro ⟨_, ⟨passes, rfl⟩, _, ⟨rest, rfl⟩, rfl⟩
        exact ⟨⟨passes, rest⟩, rfl⟩
      · rintro ⟨⟨passes, rest⟩, rfl⟩
        exact ⟨_, ⟨passes, rfl⟩, _, ⟨rest, rfl⟩, rfl⟩

/-! ### A sample plan -/

def sampleDraft : ContextRevisionDraft where
  kind := .decision
  topicKey := none
  problemView := none
  statement := "Use one writer"
  rationale := "Two writers race"
  applicability := ⟨[], [], []⟩
  assumptions := []
  recheckWhen := []
  hints := []
  relations := []
  evidence :=
    [{ kind := .sourceSnapshot
       supports := "One writer"
       content := .object [("lines", .string "1")]
       interpretation := "The lock is exclusive"
       limitations := [] }]

def sampleCandidate : ContextCandidate where
  candidateId := ⟨1⟩
  submissionId := ⟨1⟩
  sourceEpisode := ⟨⟨1⟩, ⟨1⟩, ⟨1⟩⟩
  content := sampleDraft

def noEdits : OptionalCandidateEdits :=
  ⟨none, none, none, none, none, none, none, none, none, none, none⟩

def sampleOperation : CandidateConfirmationOperation where
  candidateId := ⟨1⟩
  reviewParentVersion := 1
  analysisGeneration := 1
  primary := .existingSpace ⟨1⟩
  relatedSpaceIds := []
  edits := noEdits

def asciiBytes (pieces : List String) : List UInt8 :=
  pieces.flatMap fun piece =>
    piece.toList.map fun character => UInt8.ofNat character.toNat

/-- The JSON text of `sampleDraft`. -/
def sampleDraftJson : List String :=
  ["\x7b\"kind\":",
    "\"decision\",",
    "\"topic_key\":null,",
    "\"statement\":\"Use one writer\",",
    "\"rationale\":\"Two writers race\",",
    "\"applicability\":\x7b\"domains\":[],\"platforms\":[],\"conditions\":[]\x7d,",
    "\"assumptions\":[],\"recheck_when\":[],\"relations\":[],",
    "\"evidence\":[\x7b\"kind\":\"source_snapshot\",\"supports\":\"One writer\",",
    "\"content\":\x7b\"lines\":\"1\"\x7d,\"interpretation\":\"The lock is exclusive\",",
    "\"limitations\":[]\x7d]\x7d"]

/-- The JSON text of `sampleOperation`. -/
def sampleOperationJson : List String :=
  ["\x7b\"candidate_id\":",
    "\"cnd_00000000-0000-0000-0000-000000000001\",",
    "\"review_parent_version\":1,\"analysis_generation\":1,",
    "\"primary\":\x7b\"kind\":\"existing_space\",",
    "\"space_id\":\"spc_00000000-0000-0000-0000-000000000001\"\x7d,",
    "\"related_space_ids\":[],\"edits\":\x7b\x7d\x7d"]

/-- The encoders and the digest, on the sample draft and the sample operation. -/
def planHasher : PlanHasher where
  draftToVec _ := asciiBytes sampleDraftJson
  submissionToVec _ _ := []
  operationToVec _ := asciiBytes sampleOperationJson
  planToVec _ := []
  sha256Hex bytes :=
    -- The third byte tells the draft, which starts with its kind, from the operation.
    if bytes[2]? = some 107 then "3e6a2d7970370390defb6fbf2befb52bd6202ee6a910620f80099b067b19fd8d"
    else "5e4ec99d10ef0140f247726abffaad4eb305e1b870083b0efe620b6e8fa0fda3"

def freshIds (first : Uuid) : ReservedIds where
  revisionId := ⟨first⟩
  evidenceId index := ⟨first + BitVec.ofNat 128 index⟩
  contextId := ⟨first⟩
  referenceId index := ⟨first + BitVec.ofNat 128 index⟩
  referenceEventId index := ⟨first + 8 + BitVec.ofNat 128 index⟩
  spaceId := ⟨first⟩
  intentRevisionId := ⟨first + 1⟩
  spaceCreatedEventId := ⟨first⟩
  contextRevisionEventId := ⟨first + 1⟩
  spaceAssociationEventId := ⟨first + 2⟩
  publicationEventId := ⟨first + 3⟩
  confirmationEventId := ⟨first + 4⟩
  associationId := ⟨first⟩
  publicationId := ⟨first⟩
  conflictId index := ⟨first + BitVec.ofNat 128 index⟩
  conflictEventId index := ⟨first + 12 + BitVec.ofNat 128 index⟩
  confirmationId := ⟨first⟩

def sampleBatchId : String :=
  "bat_00000000-0000-4000-8000-000000000001"

def reservedPlan (ids : ReservedIds) : Result CandidateConfirmationPlan :=
  CandidateConfirmationPlan.reserve planHasher ids sampleCandidate sampleOperation
    (.existing ⟨1⟩) [] []

/-- The events of the sample plan under fresh identities. -/
def sampleConfirmation (ids : ReservedIds) : List ReducerEvent :=
  ((reservedPlan ids).bind fun plan =>
    fromCandidateConfirmationPlan planHasher plan sampleBatchId).toOption.getD []

end SharedContext
