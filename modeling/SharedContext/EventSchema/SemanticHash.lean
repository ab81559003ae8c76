import SharedContext.EventSchema.EventJson
import SharedContext.Library.Utf8

/-!
# Semantic hashes

The semantic hash of an event is the digest of its canonical JSON without the envelope
and without the identities its kind defines.  For every kind but one the bytes tell two
events apart exactly when they mean different things; the bytes of a Context revision
also leave out its Space, its Context and its parents.
-/

namespace SharedContext

/-! ### Removing members -/

/-- `Map::remove`. -/
def Value.without (key : String) : Value → Value
  | .object members => .object (members.filter fun member => member.1 ≠ key)
  | value => value

/-- The value with the member of a key changed, if there is one. -/
def Value.change (key : String) (update : Value → Value) : Value → Value
  | .object members => .object (members.map fun member =>
      if member.1 = key then (member.1, update member.2) else member)
  | value => value

def Value.changeItems (update : Value → Value) : Value → Value
  | .array items => .array (items.map update)
  | value => value

/-- A change that does not look at the order of members. -/
def Respects (update : Value → Value) : Prop :=
  ∀ first second : Value, Reordered first second → Reordered (update first) (update second)

theorem Respects.comp {inner outer : Value → Value} (outerRespects : Respects outer)
    (innerRespects : Respects inner) : Respects fun value => outer (inner value) :=
  fun first second same => outerRespects _ _ (innerRespects first second same)

theorem respects_without (key : String) : Respects (Value.without key) := by
  intro first second same
  induction same with
  | refl value => exact .refl _
  | members same => exact .members (same.filter _)
  | item before after same ih => exact .item before after same
  | @member before name value other after same ih =>
      by_cases isKey : name = key
      · simp only [Value.without, List.filter_append, List.filter_cons, isKey, ne_eq,
          not_true_eq_false, decide_false, Bool.false_eq_true, if_false]
        exact .refl _
      · simp only [Value.without, List.filter_append, List.filter_cons, isKey, ne_eq,
          not_false_eq_true, decide_true, if_true]
        exact .member _ name _ same
  | trans one other oneIH otherIH => exact oneIH.trans otherIH

theorem respects_change (key : String) {update : Value → Value} (respects : Respects update) :
    Respects (Value.change key update) := by
  intro first second same
  induction same with
  | refl value => exact .refl _
  | members same => exact .members (same.map _)
  | item before after same ih => exact .item before after same
  | @member before name value other after same ih =>
      by_cases isKey : name = key
      · simp only [Value.change, List.map_append, List.map_cons, isKey, if_true]
        exact .member _ key _ (respects _ _ same)
      · simp only [Value.change, List.map_append, List.map_cons, isKey, if_false]
        exact .member _ name _ same
  | trans one other oneIH otherIH => exact oneIH.trans otherIH

theorem respects_changeItems {update : Value → Value} (respects : Respects update) :
    Respects (Value.changeItems update) := by
  intro first second same
  induction same with
  | refl value => exact .refl _
  | members same => exact .members same
  | item before after same ih =>
      simp only [Value.changeItems, List.map_append, List.map_cons]
      exact .item _ _ (respects _ _ same)
  | member before key after same ih => exact .member before key after same
  | trans one other oneIH otherIH => exact oneIH.trans otherIH

theorem Value.without_ofFields (key : String) (fields : List (String × Option Value)) :
    (Value.ofFields fields).without key =
      .ofFields (fields.filter fun field => field.1 ≠ key) := by
  rw [Value.ofFields, Value.without, Value.ofFields, Value.object.injEq, fieldMembers,
    fieldMembers]
  induction fields with
  | nil => rfl
  | cons field rest ih =>
      obtain ⟨name, value⟩ := field
      cases value with
      | none => by_cases isKey : name = key <;> simpa [isKey] using ih
      | some value => by_cases isKey : name = key <;> simpa [isKey] using ih

theorem Value.change_ofFields (key : String) (update : Value → Value)
    (fields : List (String × Option Value)) :
    (Value.ofFields fields).change key update = .ofFields (fields.map fun field =>
      if field.1 = key then (field.1, field.2.map update) else field) := by
  rw [Value.ofFields, Value.change, Value.ofFields, Value.object.injEq, fieldMembers,
    fieldMembers]
  induction fields with
  | nil => rfl
  | cons field rest ih =>
      obtain ⟨name, value⟩ := field
      cases value with
      | none => by_cases isKey : name = key <;> simpa [isKey] using ih
      | some value => by_cases isKey : name = key <;> simpa [isKey] using ih

theorem Value.changeItems_ofList {α : Type} (update : Value → Value) (encode : α → Value)
    (items : List α) :
    (Value.ofList encode items).changeItems update =
      .ofList (fun item => update (encode item)) items := by
  simp [Value.ofList, Value.changeItems]

/-! ### Events -/

inductive EventType
  | contextCandidateCreated
  | candidateConfirmed
  | spaceCreated
  | spaceIntentRevisionAdded
  | contextRevisionAdded
  | contextReviewed
  | contextPublicationChanged
  | contextSpaceAssociationChanged
  | semanticConflictOpened
  | semanticConflictResolutionAdded
  | engineeringReferenceRecorded
  deriving DecidableEq, Repr

def EventType.asStr : EventType → String
  | .contextCandidateCreated => "context_candidate.created"
  | .candidateConfirmed => "candidate.confirmed"
  | .spaceCreated => "space.created"
  | .spaceIntentRevisionAdded => "space.intent_revision_added"
  | .contextRevisionAdded => "context.revision_added"
  | .contextReviewed => "context.reviewed"
  | .contextPublicationChanged => "context.publication_changed"
  | .contextSpaceAssociationChanged => "context.space_association_changed"
  | .semanticConflictOpened => "semantic_conflict.opened"
  | .semanticConflictResolutionAdded => "semantic_conflict.resolution_added"
  | .engineeringReferenceRecorded => "engineering_reference.recorded"

theorem EventType.asStr_injective : Function.Injective EventType.asStr := by
  intro first second same
  cases first <;> cases second <;> simp_all [EventType.asStr]

namespace EventPayload

def eventType : EventPayload → EventType
  | .contextCandidateCreated _ => .contextCandidateCreated
  | .candidateConfirmed _ => .candidateConfirmed
  | .spaceCreated .. => .spaceCreated
  | .spaceIntentRevisionAdded .. => .spaceIntentRevisionAdded
  | .contextRevisionAdded .. => .contextRevisionAdded
  | .contextReviewed .. => .contextReviewed
  | .contextPublicationChanged .. => .contextPublicationChanged
  | .contextSpaceAssociationChanged _ => .contextSpaceAssociationChanged
  | .semanticConflictOpened .. => .semanticConflictOpened
  | .semanticConflictResolutionAdded .. => .semanticConflictResolutionAdded
  | .engineeringReferenceRecorded .. => .engineeringReferenceRecorded

def fields : EventPayload → List (String × Option Value)
  | .contextCandidateCreated candidate => [("candidate", some candidate.toValue)]
  | .candidateConfirmed confirmation => [("confirmation", some confirmation.toValue)]
  | .spaceCreated spaceId intentRevision
  | .spaceIntentRevisionAdded spaceId intentRevision => [
      ("space_id", some (.ofId spaceId)),
      ("intent_revision", some intentRevision.toValue)]
  | .contextRevisionAdded spaceId contextId revision => [
      ("space_id", some (.ofId spaceId)),
      ("context_id", some (.ofId contextId)),
      ("revision", some revision.toValue)]
  | .contextReviewed spaceId contextId review => [
      ("space_id", some (.ofId spaceId)),
      ("context_id", some (.ofId contextId)),
      ("review", some review.toValue)]
  | .contextPublicationChanged spaceId contextId publication => [
      ("space_id", some (.ofId spaceId)),
      ("context_id", some (.ofId contextId)),
      ("publication", some publication.toValue)]
  | .contextSpaceAssociationChanged association => [("association", some association.toValue)]
  | .semanticConflictOpened spaceId conflict => [
      ("space_id", some (.ofId spaceId)),
      ("conflict", some conflict.toValue)]
  | .semanticConflictResolutionAdded spaceId conflictId resolution => [
      ("space_id", some (.ofId spaceId)),
      ("conflict_id", some (.ofId conflictId)),
      ("resolution", some resolution.toValue)]
  | .engineeringReferenceRecorded contextId revisionId reference => [
      ("context_id", some (.ofId contextId)),
      ("revision_id", some (.ofId revisionId)),
      ("reference", some reference.toValue)]

def contents : EventPayload → List Value
  | .contextCandidateCreated candidate =>
      candidate.content.evidence.map EvidenceSnapshotDraft.content
  | .candidateConfirmed confirmation =>
      (confirmation.edits.evidence.getD []).map EvidenceSnapshotDraft.content
  | .contextRevisionAdded _ _ revision => revision.evidence.map EvidenceSnapshot.content
  | _ => []

end EventPayload

/-- A V1 event.  Its annotations are the JSON they are written as. -/
structure EventSchema.Event where
  eventId : EventId
  payload : EventPayload
  annotations : Option Value
  contents_wellFormed : ∀ content ∈ payload.contents, content.WellFormed

open EventSchema

namespace EventSchema.Event

/-- `serde_json::to_value` of an event. -/
def toValue (event : Event) : Value :=
  .ofFields ([
    ("schema_version", some (.string "1")),
    ("event_id", some (.ofId event.eventId)),
    ("event_type", some (.string event.payload.eventType.asStr))] ++
    event.payload.fields ++ [("annotations", event.annotations)])

end EventSchema.Event

/-! ### The hash -/

def removeDefinedIdentityFields : EventType → Value → Value
  | .contextCandidateCreated, object =>
      object.change "candidate" (Value.without "candidate_id")
  | .candidateConfirmed, object =>
      object.change "confirmation" (Value.without "confirmation_id")
  | .spaceCreated, object =>
      (object.without "space_id").change "intent_revision" (Value.without "revision_id")
  | .spaceIntentRevisionAdded, object =>
      object.change "intent_revision" (Value.without "revision_id")
  | .contextRevisionAdded, object =>
      ((object.without "space_id").without "context_id").change "revision" fun revision =>
        ((revision.without "revision_id").without "parent_revision_ids").change "evidence"
          (Value.changeItems (Value.without "evidence_id"))
  | .contextReviewed, object => object.change "review" (Value.without "review_id")
  | .contextPublicationChanged, object =>
      object.change "publication" (Value.without "publication_id")
  | .contextSpaceAssociationChanged, object =>
      object.change "association" (Value.without "association_id")
  | .semanticConflictOpened, object => object.change "conflict" (Value.without "conflict_id")
  | .semanticConflictResolutionAdded, object =>
      object.change "resolution" (Value.without "resolution_id")
  | .engineeringReferenceRecorded, object =>
      object.change "reference" (Value.without "reference_id")

/-- What is hashed of the JSON of an event. -/
def semanticValue (eventType : EventType) (value : Value) : Value :=
  removeDefinedIdentityFields eventType
    (((value.without "schema_version").without "event_id").without "annotations")

def canonicalBytes (eventType : EventType) (value : Value) : List UInt8 :=
  Utf8.bytes (String.ofList (writeCanonicalJson (semanticValue eventType value)))

namespace EventSchema.Event

def semanticBytes (event : Event) : List UInt8 :=
  canonicalBytes event.payload.eventType event.toValue

def semanticHash (sha256Hex : List UInt8 → String) (event : Event) : String :=
  sha256Hex event.semanticBytes

end EventSchema.Event

theorem respects_semanticValue (eventType : EventType) : Respects (semanticValue eventType) := by
  have envelope : Respects fun value =>
      ((value.without "schema_version").without "event_id").without "annotations" :=
    (respects_without _).comp ((respects_without _).comp (respects_without _))
  have inner (name key : String) : Respects (Value.change name (Value.without key)) :=
    respects_change name (respects_without key)
  have removal : Respects (removeDefinedIdentityFields eventType) := by
    cases eventType with
    | spaceCreated => exact (inner _ _).comp (respects_without _)
    | contextRevisionAdded =>
        have evidence : Respects (Value.changeItems (Value.without "evidence_id")) :=
          respects_changeItems (respects_without _)
        have revision : Respects fun revision : Value =>
            ((revision.without "revision_id").without "parent_revision_ids").change "evidence"
              (Value.changeItems (Value.without "evidence_id")) :=
          (respects_change _ evidence).comp ((respects_without _).comp (respects_without _))
        exact (respects_change _ revision).comp
          ((respects_without _).comp (respects_without _))
    | _ => exact inner _ _
  exact removal.comp envelope

/-! ### Records without their own identities -/

section Bodies

/-- What a Candidate means whatever its identity. -/
def ContextCandidate.meaning (candidate : ContextCandidate) : ContextCandidate :=
  { candidate with candidateId := ⟨0⟩, content := candidate.content.canonical }

theorem ContextCandidate.body_identifies (first second : ContextCandidate) :
    (Value.ofFields first.body).canonical = (Value.ofFields second.body).canonical ↔
      first.meaning = second.meaning := by
  cases first
  cases second
  rw [ContextCandidate.body, ContextCandidate.body, normalizes_canonical.fields]
  · simp [ContextCandidate.meaning, normalizes_canonical.ofId.iff,
      (WorkEpisodeRef.identifies normalizes_canonical).iff, ContextRevisionDraft.identifies _ _]
  · exact ⟨by simp, by simp⟩

theorem ContextCandidate.body_wellFormed {candidate : ContextCandidate}
    (contents : ∀ evidence ∈ candidate.content.evidence, evidence.content.WellFormed) :
    (Value.ofFields candidate.body).WellFormed := by
  refine wellFormed_ofFields (by simp [ContextCandidate.body]) ?_
  simp [ContextCandidate.body, ContextRevisionDraft.wellFormed contents]

def CandidateConfirmation.meaning (confirmation : CandidateConfirmation) :
    CandidateConfirmation :=
  { confirmation with confirmationId := ⟨0⟩, edits := confirmation.edits.canonical }

theorem CandidateConfirmation.body_identifies (first second : CandidateConfirmation) :
    (Value.ofFields first.body).canonical = (Value.ofFields second.body).canonical ↔
      first.meaning = second.meaning := by
  have causalRefs := CandidateConfirmationCausalRefs.identifies normalizes_canonical
  cases first
  cases second
  rw [CandidateConfirmation.body, CandidateConfirmation.body, normalizes_canonical.fields]
  · simp [CandidateConfirmation.meaning, normalizes_canonical.ofId.iff,
      normalizes_canonical.ids.iff, normalizes_canonical.nullableId.iff,
      normalizes_canonical.string, causalRefs.iff,
      (WorkEpisodeRef.identifies normalizes_canonical).iff, OptionalCandidateEdits.identifies _ _]
  · exact ⟨by simp, by simp⟩

theorem CandidateConfirmation.body_wellFormed {confirmation : CandidateConfirmation}
    (contents : ∀ evidence ∈ confirmation.edits.evidence.getD [], evidence.content.WellFormed) :
    (Value.ofFields confirmation.body).WellFormed := by
  refine wellFormed_ofFields (by simp [CandidateConfirmation.body]) ?_
  have created : (Value.nullable .ofId confirmation.createdSpaceId).WellFormed :=
    wellFormed_nullable fun id _ => wellFormed_ofId id
  simp [CandidateConfirmation.body, created, OptionalCandidateEdits.wellFormed contents]

def IntentRevision.meaning (revision : IntentRevision) : IntentRevision :=
  { revision with revisionId := ⟨0⟩ }

theorem IntentRevision.body_identifies (first second : IntentRevision) :
    (Value.ofFields first.body).canonical = (Value.ofFields second.body).canonical ↔
      first.meaning = second.meaning := by
  obtain ⟨revisionId, parents, intent, provisional⟩ := first
  obtain ⟨otherId, otherParents, otherIntent, otherProvisional⟩ := second
  rw [IntentRevision.body, IntentRevision.body, normalizes_canonical.fields]
  · cases provisional <;> cases otherProvisional <;>
      simp [IntentRevision.meaning, normalizes_canonical.ids.iff,
        (IntentSnapshot.identifies normalizes_canonical).iff]
  · exact ⟨by simp, by simp⟩

@[simp]
theorem IntentRevision.body_wellFormed (revision : IntentRevision) :
    (Value.ofFields revision.body).WellFormed := by
  refine wellFormed_ofFields (by simp [IntentRevision.body]) ?_
  have provisional : ∀ value ∈ (if revision.provisional then some (Value.bool true) else none),
      value.WellFormed := by
    cases revision.provisional <;> simp [Value.WellFormed]
  simpa [IntentRevision.body] using provisional

def EvidenceSnapshot.meaning (evidence : EvidenceSnapshot) : EvidenceSnapshot :=
  { evidence with evidenceId := ⟨0⟩, content := evidence.content.canonical }

theorem EvidenceSnapshot.meaning_inj (first second : EvidenceSnapshot) :
    first.meaning = second.meaning ↔
      first.asDraft.canonical = second.asDraft.canonical := by
  cases first
  cases second
  simp [EvidenceSnapshot.meaning, EvidenceSnapshot.asDraft, EvidenceSnapshotDraft.canonical]

def ContextRevision.meaning (revision : ContextRevision) : ContextRevision :=
  { revision with
    revisionId := ⟨0⟩, evidence := revision.evidence.map EvidenceSnapshot.meaning }

theorem ContextRevision.meaning_inj (first second : ContextRevision) :
    first.meaning = second.meaning ↔
      first.parentRevisionIds = second.parentRevisionIds ∧
        (contextRevisionAsDraft first).canonical = (contextRevisionAsDraft second).canonical := by
  have evidence := map_eq_map_iff EvidenceSnapshot.meaning_inj first.evidence second.evidence
  cases first
  cases second
  simp only [ContextRevision.meaning, contextRevisionAsDraft, ContextRevisionDraft.canonical,
    ContextRevision.mk.injEq, ContextRevisionDraft.mk.injEq, List.map_map, evidence, true_and]
  rfl

def ContextRevision.body (revision : ContextRevision) : Value :=
  .ofFields [
    ("kind", some (.string revision.kind.wireName)),
    ("topic_key", revision.topicKey.map .string),
    ("problem_view", revision.problemView.map .string),
    ("statement", some (.string revision.statement)),
    ("rationale", some (.string revision.rationale)),
    ("applicability", some revision.applicability.toValue),
    ("assumptions", some (.ofList .string revision.assumptions)),
    ("recheck_when", some (.ofList .string revision.recheckWhen)),
    ("hints", Value.unlessEmpty .string revision.hints),
    ("relations", some (.ofList ContextRelation.toValue revision.relations)),
    ("evidence", some (.ofList (fun evidence => evidence.asDraft.toValue) revision.evidence))]

theorem ContextRevision.body_identifies :
    Identifies Value.canonical ContextRevision.body fun revision =>
      (contextRevisionAsDraft revision).canonical := by
  intro first second
  have relations := (ContextRelation.identifies normalizes_canonical).listOf normalizes_canonical
  have drafts : Identifies Value.canonical
      (fun evidence : EvidenceSnapshot => evidence.asDraft.toValue)
      fun evidence => evidence.asDraft.canonical :=
    fun one other => EvidenceSnapshotDraft.identifies one.asDraft other.asDraft
  have evidence := drafts.ofList normalizes_canonical first.evidence second.evidence
  cases first
  cases second
  rw [ContextRevision.body, ContextRevision.body, normalizes_canonical.fields]
  · simp only [contextRevisionAsDraft, ContextRevisionDraft.canonical,
      ContextRevisionDraft.mk.injEq, List.map_cons, List.map_nil, List.cons.injEq,
      Option.map_some, Option.some.injEq, and_true, normalizes_canonical.ofString.iff,
      normalizes_canonical.texts.iff, normalizes_canonical.ofString.optionalOf,
      normalizes_canonical.ofString.unlessEmptyOf normalizes_canonical,
      ContextKind.wireName_injective.eq_iff, relations.iff, evidence,
      (Applicability.identifies normalizes_canonical).iff, List.map_map]
    rfl
  · exact ⟨by simp, by simp⟩

theorem ContextRevision.body_wellFormed {revision : ContextRevision}
    (contents : ∀ evidence ∈ revision.evidence, evidence.content.WellFormed) :
    revision.body.WellFormed := by
  refine wellFormed_ofFields (by simp) ?_
  have hints := @wellFormed_unlessEmpty _ Value.string revision.hints
    fun text _ => wellFormed_string text
  have relations : (Value.ofList ContextRelation.toValue revision.relations).WellFormed :=
    wellFormed_ofList fun relation _ => relation.wellFormed
  have evidence : (Value.ofList (fun evidence : EvidenceSnapshot => evidence.asDraft.toValue)
      revision.evidence).WellFormed :=
    wellFormed_ofList fun evidence member => EvidenceSnapshotDraft.wellFormed (contents _ member)
  simpa [relations, evidence] using hints

def Review.meaning (review : Review) : Review :=
  { review with reviewId := ⟨0⟩ }

theorem Review.body_identifies (first second : Review) :
    (Value.ofFields first.body).canonical = (Value.ofFields second.body).canonical ↔
      first.meaning = second.meaning := by
  cases first
  cases second
  rw [Review.body, Review.body, normalizes_canonical.fields]
  · simp [Review.meaning, normalizes_canonical.ofId.iff, normalizes_canonical.string,
      ReviewVerdict.wireName_injective.eq_iff]
  · exact ⟨by simp, by simp⟩

@[simp]
theorem Review.body_wellFormed (review : Review) : (Value.ofFields review.body).WellFormed := by
  refine wellFormed_ofFields (by simp [Review.body]) ?_
  simp [Review.body]

def Publication.meaning (publication : Publication) : Publication :=
  { publication with publicationId := ⟨0⟩ }

theorem Publication.body_identifies (first second : Publication) :
    (Value.ofFields first.body).canonical = (Value.ofFields second.body).canonical ↔
      first.meaning = second.meaning := by
  cases first
  cases second
  rw [Publication.body, Publication.body, normalizes_canonical.fields]
  · simp [Publication.meaning, normalizes_canonical.ofId.iff, normalizes_canonical.ids.iff,
      normalizes_canonical.string, PublicationAction.wireName_injective.eq_iff]
  · exact ⟨by simp, by simp⟩

@[simp]
theorem Publication.body_wellFormed (publication : Publication) : (Value.ofFields publication.body).WellFormed := by
  refine wellFormed_ofFields (by simp [Publication.body]) ?_
  simp [Publication.body]

def ContextSpaceAssociation.meaning (association : ContextSpaceAssociation) :
    ContextSpaceAssociation :=
  { association with associationId := ⟨0⟩ }

theorem ContextSpaceAssociation.body_identifies (first second : ContextSpaceAssociation) :
    (Value.ofFields first.body).canonical = (Value.ofFields second.body).canonical ↔
      first.meaning = second.meaning := by
  have origins := ContextSpaceAssociationOrigin.identifies normalizes_canonical
  cases first
  cases second
  rw [ContextSpaceAssociation.body, ContextSpaceAssociation.body, normalizes_canonical.fields]
  · simp [ContextSpaceAssociation.meaning, normalizes_canonical.ofId.iff,
      normalizes_canonical.ids.iff, origins.iff]
  · exact ⟨by simp, by simp⟩

@[simp]
theorem ContextSpaceAssociation.body_wellFormed (association : ContextSpaceAssociation) : (Value.ofFields association.body).WellFormed := by
  refine wellFormed_ofFields (by simp [ContextSpaceAssociation.body]) ?_
  simp [ContextSpaceAssociation.body]

def SemanticConflict.meaning (conflict : SemanticConflict) : SemanticConflict :=
  { conflict with conflictId := ⟨0⟩ }

theorem SemanticConflict.body_identifies (first second : SemanticConflict) :
    (Value.ofFields first.body).canonical = (Value.ofFields second.body).canonical ↔
      first.meaning = second.meaning := by
  have participants := (ConflictParticipant.identifies normalizes_canonical).listOf
    normalizes_canonical
  cases first
  cases second
  rw [SemanticConflict.body, SemanticConflict.body, normalizes_canonical.fields]
  · simp [SemanticConflict.meaning, normalizes_canonical.string, participants.iff,
      (Applicability.identifies normalizes_canonical).iff]
  · exact ⟨by simp, by simp⟩

@[simp]
theorem SemanticConflict.body_wellFormed (conflict : SemanticConflict) :
    (Value.ofFields conflict.body).WellFormed := by
  refine wellFormed_ofFields (by simp [SemanticConflict.body]) ?_
  have participants :
      (Value.ofList ConflictParticipant.toValue conflict.participants).WellFormed :=
    wellFormed_ofList fun participant _ => participant.wellFormed
  simp [SemanticConflict.body, participants]

def ConflictResolution.meaning (resolution : ConflictResolution) : ConflictResolution :=
  { resolution with resolutionId := ⟨0⟩ }

theorem ConflictResolution.body_identifies (first second : ConflictResolution) :
    (Value.ofFields first.body).canonical = (Value.ofFields second.body).canonical ↔
      first.meaning = second.meaning := by
  have results := (ConflictResolutionResult.identifies normalizes_canonical).listOf
    normalizes_canonical
  cases first
  cases second
  rw [ConflictResolution.body, ConflictResolution.body, normalizes_canonical.fields]
  · simp [ConflictResolution.meaning, normalizes_canonical.ids.iff, normalizes_canonical.string,
      results.iff]
  · exact ⟨by simp, by simp⟩

@[simp]
theorem ConflictResolution.body_wellFormed (resolution : ConflictResolution) :
    (Value.ofFields resolution.body).WellFormed := by
  refine wellFormed_ofFields (by simp [ConflictResolution.body]) ?_
  have results : (Value.ofList ConflictResolutionResult.toValue resolution.results).WellFormed :=
    wellFormed_ofList fun result _ => result.wellFormed
  simp [ConflictResolution.body, results]

def EngineeringReference.meaning (reference : EngineeringReference) : EngineeringReference :=
  { reference with referenceId := ⟨0⟩ }

theorem EngineeringReference.body_identifies (first second : EngineeringReference) :
    (Value.ofFields first.body).canonical = (Value.ofFields second.body).canonical ↔
      first.meaning = second.meaning := by
  obtain ⟨_, ⟨repository⟩, _, _, _, _, _⟩ := first
  obtain ⟨_, ⟨otherRepository⟩, _, _, _, _, _⟩ := second
  rw [EngineeringReference.body, EngineeringReference.body, normalizes_canonical.fields]
  · simp [EngineeringReference.meaning, normalizes_canonical.string,
      normalizes_canonical.texts.iff, ArtifactKind.wireName_injective.eq_iff,
      ReferenceRelation.wireName_injective.eq_iff,
      (ArtifactLocator.identifies normalizes_canonical).iff]
  · exact ⟨by simp, by simp⟩

@[simp]
theorem EngineeringReference.body_wellFormed (reference : EngineeringReference) : (Value.ofFields reference.body).WellFormed := by
  refine wellFormed_ofFields (by simp [EngineeringReference.body]) ?_
  simp [EngineeringReference.body]

end Bodies

/-! ### What is left of a payload -/

namespace EventPayload

/-- The fields of a payload that are hashed. -/
def semanticFields : EventPayload → List (String × Option Value)
  | .contextCandidateCreated candidate => [("candidate", some (.ofFields candidate.body))]
  | .candidateConfirmed confirmation => [("confirmation", some (.ofFields confirmation.body))]
  | .spaceCreated _ intentRevision => [("intent_revision", some (.ofFields intentRevision.body))]
  | .spaceIntentRevisionAdded spaceId intentRevision => [
      ("space_id", some (.ofId spaceId)),
      ("intent_revision", some (.ofFields intentRevision.body))]
  | .contextRevisionAdded _ _ revision => [("revision", some revision.body)]
  | .contextReviewed spaceId contextId review => [
      ("space_id", some (.ofId spaceId)),
      ("context_id", some (.ofId contextId)),
      ("review", some (.ofFields review.body))]
  | .contextPublicationChanged spaceId contextId publication => [
      ("space_id", some (.ofId spaceId)),
      ("context_id", some (.ofId contextId)),
      ("publication", some (.ofFields publication.body))]
  | .contextSpaceAssociationChanged association => [("association", some (.ofFields association.body))]
  | .semanticConflictOpened spaceId conflict => [
      ("space_id", some (.ofId spaceId)),
      ("conflict", some (.ofFields conflict.body))]
  | .semanticConflictResolutionAdded spaceId conflictId resolution => [
      ("space_id", some (.ofId spaceId)),
      ("conflict_id", some (.ofId conflictId)),
      ("resolution", some (.ofFields resolution.body))]
  | .engineeringReferenceRecorded contextId revisionId reference => [
      ("context_id", some (.ofId contextId)),
      ("revision_id", some (.ofId revisionId)),
      ("reference", some (.ofFields reference.body))]

end EventPayload

theorem EvidenceSnapshot.without_evidenceId (evidence : EvidenceSnapshot) :
    evidence.toValue.without "evidence_id" = evidence.asDraft.toValue := by
  rw [EvidenceSnapshot.toValue, Value.without_ofFields]
  simp [EvidenceSnapshot.asDraft, EvidenceSnapshotDraft.toValue]

theorem EventSchema.Event.semanticValue_toValue (event : Event) :
    semanticValue event.payload.eventType event.toValue =
      .ofFields (("event_type", some (.string event.payload.eventType.asStr)) ::
        event.payload.semanticFields) := by
  obtain ⟨eventId, payload, annotations, _⟩ := event
  rw [semanticValue, Event.toValue, Value.without_ofFields, Value.without_ofFields,
    Value.without_ofFields]
  cases payload with
  | contextRevisionAdded spaceId contextId revision =>
      simp [removeDefinedIdentityFields, EventPayload.eventType, EventPayload.fields,
        EventPayload.semanticFields, Value.without_ofFields, Value.change_ofFields,
        ContextRevision.toValue, ContextRevision.body, Value.changeItems_ofList,
        EvidenceSnapshot.without_evidenceId]
  | _ =>
      simp [removeDefinedIdentityFields, EventPayload.eventType, EventPayload.fields,
        EventPayload.semanticFields, Value.without_ofFields, Value.change_ofFields,
        ContextCandidate.toValue, CandidateConfirmation.toValue, IntentRevision.toValue,
        Review.toValue, Publication.toValue, ContextSpaceAssociation.toValue,
        SemanticConflict.toValue, ConflictResolution.toValue, EngineeringReference.toValue,
        ContextCandidate.body, CandidateConfirmation.body, IntentRevision.body, Review.body,
        Publication.body, ContextSpaceAssociation.body, SemanticConflict.body,
        ConflictResolution.body, EngineeringReference.body]

/-! ### The meaning of an event -/

namespace EventPayload

/-- The content and the existing references of a payload, whatever identities it defines
itself.  A revision without parents defines its Context. -/
def meaning : EventPayload → EventPayload
  | .contextCandidateCreated candidate => .contextCandidateCreated candidate.meaning
  | .candidateConfirmed confirmation => .candidateConfirmed confirmation.meaning
  | .spaceCreated _ intentRevision => .spaceCreated ⟨0⟩ intentRevision.meaning
  | .spaceIntentRevisionAdded spaceId intentRevision =>
      .spaceIntentRevisionAdded spaceId intentRevision.meaning
  | .contextRevisionAdded spaceId contextId revision =>
      .contextRevisionAdded spaceId (if revision.parentRevisionIds = [] then ⟨0⟩ else contextId)
        revision.meaning
  | .contextReviewed spaceId contextId review => .contextReviewed spaceId contextId review.meaning
  | .contextPublicationChanged spaceId contextId publication =>
      .contextPublicationChanged spaceId contextId publication.meaning
  | .contextSpaceAssociationChanged association =>
      .contextSpaceAssociationChanged association.meaning
  | .semanticConflictOpened spaceId conflict => .semanticConflictOpened spaceId conflict.meaning
  | .semanticConflictResolutionAdded spaceId conflictId resolution =>
      .semanticConflictResolutionAdded spaceId conflictId resolution.meaning
  | .engineeringReferenceRecorded contextId revisionId reference =>
      .engineeringReferenceRecorded contextId revisionId reference.meaning

/-- Two revisions of one content whose Space, parents or existing Context differ. -/
def DropsReferences : EventPayload → EventPayload → Prop
  | .contextRevisionAdded spaceId contextId revision,
    .contextRevisionAdded otherSpaceId otherContextId other =>
      (contextRevisionAsDraft revision).canonical = (contextRevisionAsDraft other).canonical ∧
        (spaceId ≠ otherSpaceId ∨ revision.parentRevisionIds ≠ other.parentRevisionIds ∨
          revision.parentRevisionIds ≠ [] ∧ contextId ≠ otherContextId)
  | _, _ => False

theorem semanticFields_distinct (payload : EventPayload) (tag : Option Value) :
    ((("event_type", tag) :: payload.semanticFields).map Prod.fst).Nodup := by
  cases payload <;> simp [semanticFields]

theorem semanticFields_keys {first second : EventPayload}
    (sameType : first.eventType = second.eventType) :
    first.semanticFields.map Prod.fst = second.semanticFields.map Prod.fst := by
  cases first <;> cases second <;> first
    | simp [semanticFields]; done
    | simp [eventType] at sameType

def SameFields (first second : EventPayload) : Prop :=
  first.semanticFields.map (fun field => field.2.map Value.canonical) =
    second.semanticFields.map fun field => field.2.map Value.canonical

theorem sameFields_revisions_iff {spaceId otherSpaceId : SpaceId}
    {contextId otherContextId : ContextId} {revision other : ContextRevision} :
    SameFields (.contextRevisionAdded spaceId contextId revision)
        (.contextRevisionAdded otherSpaceId otherContextId other) ↔
      (contextRevisionAsDraft revision).canonical = (contextRevisionAsDraft other).canonical := by
  simp [SameFields, semanticFields, ContextRevision.body_identifies revision other]

theorem meaning_revisions_iff {spaceId otherSpaceId : SpaceId}
    {contextId otherContextId : ContextId} {revision other : ContextRevision} :
    meaning (.contextRevisionAdded spaceId contextId revision) =
        meaning (.contextRevisionAdded otherSpaceId otherContextId other) ↔
      (contextRevisionAsDraft revision).canonical = (contextRevisionAsDraft other).canonical ∧
        spaceId = otherSpaceId ∧ revision.parentRevisionIds = other.parentRevisionIds ∧
          (revision.parentRevisionIds = [] ∨ contextId = otherContextId) := by
  rw [meaning, meaning, contextRevisionAdded.injEq, ContextRevision.meaning_inj]
  by_cases sameParents : revision.parentRevisionIds = other.parentRevisionIds
  · rw [← sameParents]
    by_cases noParents : revision.parentRevisionIds = []
    · simp [noParents, and_comm]
    · simp only [noParents, if_false, false_or, true_and]
      tauto
  · simp [sameParents]

theorem sameFields_iff_meaning {first second : EventPayload}
    (sameType : first.eventType = second.eventType)
    (other : first.eventType ≠ .contextRevisionAdded) :
    SameFields first second ↔ first.meaning = second.meaning := by
  have ids {kind : IdKind} {one two : OpaqueId kind} :
      (Value.ofId one).canonical = (Value.ofId two).canonical ↔ one = two :=
    normalizes_canonical.ofId.iff
  cases first <;> cases second <;> first
    | simp [eventType] at sameType; done
    | exact absurd rfl other
    | simp [SameFields, semanticFields, meaning, ids, ContextCandidate.body_identifies _ _,
        CandidateConfirmation.body_identifies _ _, IntentRevision.body_identifies _ _,
        Review.body_identifies _ _, Publication.body_identifies _ _,
        ContextSpaceAssociation.body_identifies _ _, SemanticConflict.body_identifies _ _,
        ConflictResolution.body_identifies _ _, EngineeringReference.body_identifies _ _]

/-- Payloads of one kind are hashed alike exactly when they mean the same, or are two
revisions whose references are dropped. -/
theorem sameFields_iff {first second : EventPayload}
    (sameType : first.eventType = second.eventType) :
    SameFields first second ↔ first.meaning = second.meaning ∨ DropsReferences first second := by
  by_cases isRevision : first.eventType = .contextRevisionAdded
  · cases first <;> cases isRevision
    cases second <;> cases sameType
    rw [sameFields_revisions_iff, meaning_revisions_iff, DropsReferences]
    tauto
  · have notDropped : ¬ DropsReferences first second := by
      cases first <;> first | exact absurd rfl isRevision | exact id
    rw [sameFields_iff_meaning sameType isRevision, or_iff_left notDropped]

theorem not_dropsReferences_of_meaning {first second : EventPayload}
    (same : first.meaning = second.meaning) : ¬ DropsReferences first second := by
  intro dropped
  cases first <;> cases second <;> try exact dropped
  obtain ⟨-, sameSpace, sameParents, sameContext⟩ := meaning_revisions_iff.mp same
  obtain ⟨-, otherSpace | otherParents | ⟨parents, otherContext⟩⟩ := dropped
  · exact otherSpace sameSpace
  · exact otherParents sameParents
  · exact otherContext (sameContext.resolve_left parents)

end EventPayload

theorem EventPayload.semanticFields_wellFormed {payload : EventPayload}
    (contents : ∀ content ∈ payload.contents, content.WellFormed) (tag : String) :
    (Value.ofFields (("event_type", some (.string tag)) :: payload.semanticFields)).WellFormed := by
  refine wellFormed_ofFields (payload.semanticFields_distinct _) ?_
  cases payload with
  | contextCandidateCreated candidate =>
      have body := ContextCandidate.body_wellFormed (List.forall_mem_map.mp contents)
      simp [semanticFields, body]
  | candidateConfirmed confirmation =>
      have body := CandidateConfirmation.body_wellFormed (List.forall_mem_map.mp contents)
      simp [semanticFields, body]
  | contextRevisionAdded spaceId contextId revision =>
      have body := ContextRevision.body_wellFormed (List.forall_mem_map.mp contents)
      simp [semanticFields, body]
  | _ => simp [semanticFields]

/-! ### The hash and the meaning -/

theorem canonicalText_inj {first second : List Char} :
    Utf8.bytes (String.ofList first) = Utf8.bytes (String.ofList second) ↔ first = second := by
  constructor
  · intro same
    have texts := congrArg Utf8.text? same
    rw [Utf8.text?_bytes, Utf8.text?_bytes, Option.some.injEq] at texts
    simpa using congrArg String.toList texts
  · intro same
    rw [same]

namespace EventSchema.Event

theorem semanticValue_wellFormed (event : Event) :
    (semanticValue event.payload.eventType event.toValue).WellFormed := by
  rw [event.semanticValue_toValue]
  exact EventPayload.semanticFields_wellFormed event.contents_wellFormed _

theorem canonicalBytes_reordered {event : Event} {value : Value}
    (same : Reordered value event.toValue) :
    canonicalBytes event.payload.eventType value = event.semanticBytes := by
  have reordered := respects_semanticValue event.payload.eventType _ _ same.symm
  have canonical := reordered.canonical_eq event.semanticValue_wellFormed
  rw [semanticBytes, canonicalBytes, canonicalBytes, canonicalText_inj, writeCanonicalJson_eq,
    writeCanonicalJson_eq, canonical]

theorem semanticBytes_iff (first second : Event) :
    first.semanticBytes = second.semanticBytes ↔
      first.payload.eventType = second.payload.eventType ∧
        EventPayload.SameFields first.payload second.payload := by
  rw [semanticBytes, semanticBytes, canonicalBytes, canonicalBytes, canonicalText_inj,
    writeCanonicalJson_inj first.semanticValue_wellFormed second.semanticValue_wellFormed,
    first.semanticValue_toValue, second.semanticValue_toValue]
  constructor
  · intro same
    have tags := normalizes_canonical.field (first.payload.semanticFields_distinct _)
      (second.payload.semanticFields_distinct _) same List.mem_cons_self List.mem_cons_self
    have sameType : first.payload.eventType = second.payload.eventType := by
      simpa [normalizes_canonical.string, EventType.asStr_injective.eq_iff] using tags
    have keys := EventPayload.semanticFields_keys sameType
    have columns := (normalizes_canonical.fields
      ⟨by simp [keys], first.payload.semanticFields_distinct _⟩).mp same
    exact ⟨sameType, (List.cons.inj columns).2⟩
  · rintro ⟨sameType, columns⟩
    have keys := EventPayload.semanticFields_keys sameType
    refine normalizes_canonical.congr (by simp [keys]) ?_
    rw [List.map_cons, List.map_cons, sameType]
    exact congrArg _ columns

/-- What a hash that identifies meaning does to two events. -/
structure HashIdentifiesMeaning (sha256Hex : List UInt8 → String) (first second : Event) :
    Prop where
  reordered : ∀ value, Reordered value first.toValue →
    sha256Hex (canonicalBytes first.payload.eventType value) = first.semanticHash sha256Hex
  sameMeaning : first.payload.meaning = second.payload.meaning →
    first.semanticHash sha256Hex = second.semanticHash sha256Hex
  otherMeaning : first.payload.eventType = second.payload.eventType →
    first.payload.meaning ≠ second.payload.meaning → first.semanticBytes ≠ second.semanticBytes

end EventSchema.Event

theorem EventPayload.eventType_meaning (payload : EventPayload) :
    payload.meaning.eventType = payload.eventType := by
  cases payload <;> rfl

/-- The semantic hash identifies the meaning of two events exactly when they are not two
revisions of one content whose Space, parents or existing Context differ. -/
theorem semantic_hash_identifies_iff (sha256Hex : List UInt8 → String) (first second : Event) :
    first.HashIdentifiesMeaning sha256Hex second ↔
      ¬ EventPayload.DropsReferences first.payload second.payload := by
  constructor
  · intro identifies dropped
    have sameType : first.payload.eventType = second.payload.eventType := by
      obtain ⟨_, firstPayload, _, _⟩ := first
      obtain ⟨_, secondPayload, _, _⟩ := second
      cases firstPayload <;> cases secondPayload <;> first | rfl | exact dropped.elim
    refine identifies.otherMeaning sameType ?_ ?_
    · exact fun same => EventPayload.not_dropsReferences_of_meaning same dropped
    · exact (first.semanticBytes_iff second).mpr
        ⟨sameType, (EventPayload.sameFields_iff sameType).mpr (.inr dropped)⟩
  · intro kept
    refine ⟨fun value same => ?_, fun same => ?_, fun sameType other sameBytes => ?_⟩
    · rw [Event.canonicalBytes_reordered same, Event.semanticHash]
    · have sameType : first.payload.eventType = second.payload.eventType := by
        rw [← first.payload.eventType_meaning, same, second.payload.eventType_meaning]
      rw [Event.semanticHash, Event.semanticHash, (first.semanticBytes_iff second).mpr
        ⟨sameType, (EventPayload.sameFields_iff sameType).mpr (.inl same)⟩]
    · have fields := ((first.semanticBytes_iff second).mp sameBytes).2
      rcases (EventPayload.sameFields_iff sameType).mp fields with same | dropped
      · exact other same
      · exact kept dropped

/-! ### Two revisions hashed alike -/

/-- A revision of one statement with the given parents. -/
def revisionBehind (parents : List RevisionId) : ContextRevision where
  revisionId := ⟨7⟩
  parentRevisionIds := parents
  kind := .decision
  topicKey := none
  problemView := none
  statement := "Retry twice"
  rationale := "Timeouts are rare"
  applicability := ⟨[], [], []⟩
  assumptions := []
  recheckWhen := []
  hints := []
  relations := []
  evidence := [⟨⟨8⟩, .sourceSnapshot, "the retry count",
    .object [("file", .string "retry.rs")], "read", []⟩]

def revisionEvent (parents : List RevisionId) : Event where
  eventId := ⟨9⟩
  payload := .contextRevisionAdded ⟨1⟩ ⟨2⟩ (revisionBehind parents)
  annotations := none
  contents_wellFormed := by
    intro content member
    simp only [EventPayload.contents, revisionBehind, List.map_cons, List.map_nil,
      List.mem_singleton] at member
    subst member
    exact ⟨by simp, trivial, trivial⟩

/-- A revision behind one parent is hashed like a revision behind another. -/
theorem semantic_hash_drops_parents :
    (revisionEvent [⟨3⟩]).payload.validate = .ok () ∧
      (revisionEvent [⟨4⟩]).payload.validate = .ok () ∧
      ¬ ∀ (sha256Hex : List UInt8 → String) (first second : Event),
        first.HashIdentifiesMeaning sha256Hex second := by
  refine ⟨by decide +kernel, by decide +kernel, fun identifies => ?_⟩
  have identified := identifies (fun _ => "") (revisionEvent [⟨3⟩]) (revisionEvent [⟨4⟩])
  refine identified.otherMeaning rfl ?_ ?_
  · intro same
    exact absurd (EventPayload.meaning_revisions_iff.mp same).2.2.1 (by decide)
  · exact (Event.semanticBytes_iff _ _).mpr ⟨rfl, EventPayload.sameFields_revisions_iff.mpr rfl⟩

end SharedContext
