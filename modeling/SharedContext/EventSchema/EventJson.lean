import SharedContext.Domain.CanonicalJson
import SharedContext.EventSchema.Payload

/-!
# Events as JSON

The wire form of the domain types that events carry, field by field as the derived
serializers write it.  Every type is written so that its JSON tells two values apart,
for evidence up to the order of the members of its content.
-/

namespace SharedContext

/-! ### Names -/

def ContextKind.wireName : ContextKind → String
  | .decision => "decision"
  | .contract => "contract"
  | .issue => "issue"
  | .risk => "risk"
  | .validation => "validation"
  | .discovery => "discovery"
  | .progress => "progress"

theorem ContextKind.wireName_injective : Function.Injective ContextKind.wireName := by
  intro first second same
  cases first <;> cases second <;> simp_all [ContextKind.wireName]

def EvidenceType.wireName : EvidenceType → String
  | .sourceSnapshot => "source_snapshot"
  | .experimentRecord => "experiment_record"
  | .artifactSnapshot => "artifact_snapshot"

theorem EvidenceType.wireName_injective : Function.Injective EvidenceType.wireName := by
  intro first second same
  cases first <;> cases second <;> simp_all [EvidenceType.wireName]

def ContextRelationKind.wireName : ContextRelationKind → String
  | .dependsOn => "depends_on"
  | .constrains => "constrains"
  | .implements => "implements"
  | .validatedBy => "validated_by"
  | .contradicts => "contradicts"
  | .supersedes => "supersedes"
  | .relatedTo => "related_to"

theorem ContextRelationKind.wireName_injective :
    Function.Injective ContextRelationKind.wireName := by
  intro first second same
  cases first <;> cases second <;> simp_all [ContextRelationKind.wireName]

def ReviewVerdict.wireName : ReviewVerdict → String
  | .approve => "approve"
  | .reject => "reject"

theorem ReviewVerdict.wireName_injective : Function.Injective ReviewVerdict.wireName := by
  intro first second same
  cases first <;> cases second <;> simp_all [ReviewVerdict.wireName]

def PublicationAction.wireName : PublicationAction → String
  | .publish => "publish"
  | .withdraw => "withdraw"

theorem PublicationAction.wireName_injective :
    Function.Injective PublicationAction.wireName := by
  intro first second same
  cases first <;> cases second <;> simp_all [PublicationAction.wireName]

def ResolutionOutcome.wireName : ResolutionOutcome → String
  | .retained => "retained"
  | .revised => "revised"
  | .withdrawn => "withdrawn"
  | .scopeSplit => "scope_split"

theorem ResolutionOutcome.wireName_injective :
    Function.Injective ResolutionOutcome.wireName := by
  intro first second same
  cases first <;> cases second <;> simp_all [ResolutionOutcome.wireName]

def ArtifactKind.wireName : ArtifactKind → String
  | .module => "module"
  | .file => "file"
  | .symbol => "symbol"
  | .api => "api"
  | .schema => "schema"
  | .test => "test"

theorem ArtifactKind.wireName_injective : Function.Injective ArtifactKind.wireName := by
  intro first second same
  cases first <;> cases second <;> simp_all [ArtifactKind.wireName]

def ReferenceRelation.wireName : ReferenceRelation → String
  | .implements => "implements"
  | .defines => "defines"
  | .consumes => "consumes"
  | .validates => "validates"
  | .constrains => "constrains"
  | .dependsOn => "depends_on"

theorem ReferenceRelation.wireName_injective :
    Function.Injective ReferenceRelation.wireName := by
  intro first second same
  cases first <;> cases second <;> simp_all [ReferenceRelation.wireName]

/-! ### Records -/

section Records

variable {normal : Value → Value} (normalizes : Normalizes normal)

def Applicability.toValue (applicability : Applicability) : Value :=
  .ofFields [
    ("domains", some (.ofList .string applicability.domains)),
    ("platforms", some (.ofList .string applicability.platforms)),
    ("conditions", some (.ofList .string applicability.conditions))]

include normalizes in
theorem Applicability.identifies : Identifies normal Applicability.toValue id := by
  intro first second
  cases first
  cases second
  rw [Applicability.toValue, Applicability.toValue, normalizes.fields]
  · simp [normalizes.texts.iff]
  · exact ⟨by simp, by simp⟩

@[simp]
theorem Applicability.wellFormed (applicability : Applicability) : applicability.toValue.WellFormed := by
  refine wellFormed_ofFields (by simp) ?_
  simp

def ContextRelation.toValue (relation : ContextRelation) : Value :=
  .ofFields [
    ("target_context_id", some (.ofId relation.targetContextId)),
    ("kind", some (.string relation.kind.wireName)),
    ("rationale", some (.string relation.rationale)),
    ("supports", some (.ofList .string relation.supports))]

include normalizes in
theorem ContextRelation.identifies : Identifies normal ContextRelation.toValue id := by
  intro first second
  cases first
  cases second
  rw [ContextRelation.toValue, ContextRelation.toValue, normalizes.fields]
  · simp [normalizes.texts.iff, normalizes.ofId.iff, normalizes.string, ContextRelationKind.wireName_injective.eq_iff]
  · exact ⟨by simp, by simp⟩

@[simp]
theorem ContextRelation.wellFormed (relation : ContextRelation) : relation.toValue.WellFormed := by
  refine wellFormed_ofFields (by simp) ?_
  simp

def EvidenceSnapshotDraft.toValue (evidence : EvidenceSnapshotDraft) : Value :=
  .ofFields [
    ("kind", some (.string evidence.kind.wireName)),
    ("supports", some (.string evidence.supports)),
    ("content", some evidence.content),
    ("interpretation", some (.string evidence.interpretation)),
    ("limitations", some (.ofList .string evidence.limitations))]

/-- The evidence with its content in canonical form. -/
def EvidenceSnapshotDraft.canonical (evidence : EvidenceSnapshotDraft) : EvidenceSnapshotDraft :=
  { evidence with content := evidence.content.canonical }

theorem EvidenceSnapshotDraft.identifies :
    Identifies Value.canonical EvidenceSnapshotDraft.toValue EvidenceSnapshotDraft.canonical := by
  intro first second
  cases first
  cases second
  rw [EvidenceSnapshotDraft.toValue, EvidenceSnapshotDraft.toValue, normalizes_canonical.fields]
  · simp [EvidenceSnapshotDraft.canonical, normalizes_canonical.string,
      normalizes_canonical.texts.iff, EvidenceType.wireName_injective.eq_iff]
  · exact ⟨by simp, by simp⟩

theorem EvidenceSnapshotDraft.wellFormed {evidence : EvidenceSnapshotDraft}
    (content : evidence.content.WellFormed) : evidence.toValue.WellFormed := by
  refine wellFormed_ofFields (by simp) ?_
  simp [content]

def EvidenceSnapshot.toValue (evidence : EvidenceSnapshot) : Value :=
  .ofFields [
    ("evidence_id", some (.ofId evidence.evidenceId)),
    ("kind", some (.string evidence.kind.wireName)),
    ("supports", some (.string evidence.supports)),
    ("content", some evidence.content),
    ("interpretation", some (.string evidence.interpretation)),
    ("limitations", some (.ofList .string evidence.limitations))]

def ContextRevisionDraft.toValue (draft : ContextRevisionDraft) : Value :=
  .ofFields [
    ("kind", some (.string draft.kind.wireName)),
    ("topic_key", some (.nullable .string draft.topicKey)),
    ("problem_view", draft.problemView.map .string),
    ("statement", some (.string draft.statement)),
    ("rationale", some (.string draft.rationale)),
    ("applicability", some draft.applicability.toValue),
    ("assumptions", some (.ofList .string draft.assumptions)),
    ("recheck_when", some (.ofList .string draft.recheckWhen)),
    ("hints", Value.unlessEmpty .string draft.hints),
    ("relations", some (.ofList ContextRelation.toValue draft.relations)),
    ("evidence", some (.ofList EvidenceSnapshotDraft.toValue draft.evidence))]

def ContextRevisionDraft.canonical (draft : ContextRevisionDraft) : ContextRevisionDraft :=
  { draft with evidence := draft.evidence.map EvidenceSnapshotDraft.canonical }

theorem ContextRevisionDraft.identifies :
    Identifies Value.canonical ContextRevisionDraft.toValue ContextRevisionDraft.canonical := by
  intro first second
  have relations := (ContextRelation.identifies normalizes_canonical).listOf normalizes_canonical
  have evidence := EvidenceSnapshotDraft.identifies.ofList normalizes_canonical first.evidence
    second.evidence
  cases first
  cases second
  rw [ContextRevisionDraft.toValue, ContextRevisionDraft.toValue, normalizes_canonical.fields]
  · simp only [ContextRevisionDraft.canonical, ContextRevisionDraft.mk.injEq, List.map_cons,
      List.map_nil, List.cons.injEq, Option.map_some, Option.some.injEq, and_true,
      normalizes_canonical.ofString.iff, normalizes_canonical.texts.iff,
      normalizes_canonical.nullableText.iff, normalizes_canonical.ofString.optionalOf,
      normalizes_canonical.ofString.unlessEmptyOf normalizes_canonical,
      ContextKind.wireName_injective.eq_iff, relations.iff, evidence,
      (Applicability.identifies normalizes_canonical).iff]
  · exact ⟨by simp, by simp⟩

theorem ContextRevisionDraft.wellFormed {draft : ContextRevisionDraft}
    (contents : ∀ evidence ∈ draft.evidence, evidence.content.WellFormed) :
    draft.toValue.WellFormed := by
  refine wellFormed_ofFields (by simp) ?_
  have topicKey : (Value.nullable .string draft.topicKey).WellFormed :=
    wellFormed_nullable fun text _ => wellFormed_string text
  have hints := @wellFormed_unlessEmpty _ Value.string draft.hints fun text _ => wellFormed_string text
  have relations : (Value.ofList ContextRelation.toValue draft.relations).WellFormed :=
    wellFormed_ofList fun relation _ => relation.wellFormed
  have evidence : (Value.ofList EvidenceSnapshotDraft.toValue draft.evidence).WellFormed :=
    wellFormed_ofList fun evidence member => EvidenceSnapshotDraft.wellFormed (contents _ member)
  simpa [topicKey, relations, evidence] using hints

def ContextRevision.toValue (revision : ContextRevision) : Value :=
  .ofFields [
    ("revision_id", some (.ofId revision.revisionId)),
    ("parent_revision_ids", some (.ofList .ofId revision.parentRevisionIds)),
    ("kind", some (.string revision.kind.wireName)),
    ("topic_key", revision.topicKey.map .string),
    ("problem_view", revision.problemView.map .string),
    ("statement", some (.string revision.statement)),
    ("rationale", some (.string revision.rationale)),
    ("applicability", some revision.applicability.toValue),
    ("assumptions", some (.ofList .string revision.assumptions)),
    ("recheck_when", some (.ofList .string revision.recheckWhen)),
    ("hints", Value.unlessEmpty .string revision.hints),
    ("relations", some (.ofList ContextRelation.toValue revision.relations)),
    ("evidence", some (.ofList EvidenceSnapshot.toValue revision.evidence))]

def IntentSnapshot.toValue (intent : IntentSnapshot) : Value :=
  .ofFields [
    ("title", some (.string intent.title)),
    ("problem", some (.string intent.problem)),
    ("desired_outcome", some (.string intent.desiredOutcome)),
    ("in_scope", some (.ofList .string intent.inScope)),
    ("out_of_scope", some (.ofList .string intent.outOfScope)),
    ("acceptance_conditions", some (.ofList .string intent.acceptanceConditions)),
    ("domain_terms", some (.ofList .string intent.domainTerms))]

include normalizes in
theorem IntentSnapshot.identifies : Identifies normal IntentSnapshot.toValue id := by
  intro first second
  cases first
  cases second
  rw [IntentSnapshot.toValue, IntentSnapshot.toValue, normalizes.fields]
  · simp [normalizes.texts.iff, normalizes.string]
  · exact ⟨by simp, by simp⟩

@[simp]
theorem IntentSnapshot.wellFormed (intent : IntentSnapshot) : intent.toValue.WellFormed := by
  refine wellFormed_ofFields (by simp) ?_
  simp

def IntentRevision.body (revision : IntentRevision) : List (String × Option Value) := [
    ("parent_revision_ids", some (.ofList .ofId revision.parentRevisionIds)),
    ("intent", some revision.intent.toValue),
    ("provisional", if revision.provisional then some (.bool true) else none)]

def IntentRevision.toValue (revision : IntentRevision) : Value :=
  .ofFields (("revision_id", some (.ofId revision.revisionId)) :: revision.body)

def Review.body (review : Review) : List (String × Option Value) := [
    ("revision_id", some (.ofId review.revisionId)),
    ("verdict", some (.string review.verdict.wireName)),
    ("reason", some (.string review.reason))]

def Review.toValue (review : Review) : Value :=
  .ofFields (("review_id", some (.ofId review.reviewId)) :: review.body)

def Publication.body (publication : Publication) : List (String × Option Value) := [
    ("previous_publication_ids", some (.ofList .ofId publication.previousPublicationIds)),
    ("action", some (.string publication.action.wireName)),
    ("revision_id", some (.ofId publication.revisionId)),
    ("review_event_ids", some (.ofList .ofId publication.reviewEventIds))]

def Publication.toValue (publication : Publication) : Value :=
  .ofFields (("publication_id", some (.ofId publication.publicationId)) :: publication.body)

def ConflictParticipant.toValue (participant : ConflictParticipant) : Value :=
  .ofFields [
    ("context_id", some (.ofId participant.contextId)),
    ("revision_id", some (.ofId participant.revisionId)),
    ("publication_id", some (.ofId participant.publicationId))]

include normalizes in
theorem ConflictParticipant.identifies : Identifies normal ConflictParticipant.toValue id := by
  intro first second
  cases first
  cases second
  rw [ConflictParticipant.toValue, ConflictParticipant.toValue, normalizes.fields]
  · simp [normalizes.ofId.iff]
  · exact ⟨by simp, by simp⟩

@[simp]
theorem ConflictParticipant.wellFormed (participant : ConflictParticipant) : participant.toValue.WellFormed := by
  refine wellFormed_ofFields (by simp) ?_
  simp

def SemanticConflict.body (conflict : SemanticConflict) : List (String × Option Value) := [
    ("participants", some (.ofList ConflictParticipant.toValue conflict.participants)),
    ("reason", some (.string conflict.reason)),
    ("applicability", some conflict.applicability.toValue)]

def SemanticConflict.toValue (conflict : SemanticConflict) : Value :=
  .ofFields (("conflict_id", some (.ofId conflict.conflictId)) :: conflict.body)

def ConflictResolutionResult.toValue (result : ConflictResolutionResult) : Value :=
  .ofFields [
    ("context_id", some (.ofId result.contextId)),
    ("revision_id", some (.ofId result.revisionId)),
    ("outcome", some (.string result.outcome.wireName))]

include normalizes in
theorem ConflictResolutionResult.identifies : Identifies normal ConflictResolutionResult.toValue id := by
  intro first second
  cases first
  cases second
  rw [ConflictResolutionResult.toValue, ConflictResolutionResult.toValue, normalizes.fields]
  · simp [normalizes.ofId.iff, normalizes.string, ResolutionOutcome.wireName_injective.eq_iff]
  · exact ⟨by simp, by simp⟩

@[simp]
theorem ConflictResolutionResult.wellFormed (result : ConflictResolutionResult) : result.toValue.WellFormed := by
  refine wellFormed_ofFields (by simp) ?_
  simp

def ConflictResolution.body (resolution : ConflictResolution) : List (String × Option Value) := [
    ("previous_resolution_ids", some (.ofList .ofId resolution.previousResolutionIds)),
    ("related_publication_ids", some (.ofList .ofId resolution.relatedPublicationIds)),
    ("results", some (.ofList ConflictResolutionResult.toValue resolution.results)),
    ("rationale", some (.string resolution.rationale))]

def ConflictResolution.toValue (resolution : ConflictResolution) : Value :=
  .ofFields (("resolution_id", some (.ofId resolution.resolutionId)) :: resolution.body)

def WorkEpisodeRef.toValue (episode : WorkEpisodeRef) : Value :=
  .ofFields [
    ("episode_id", some (.ofId episode.episodeId)),
    ("task_session_id", some (.ofId episode.taskSessionId)),
    ("task_id", some (.ofId episode.taskId))]

include normalizes in
theorem WorkEpisodeRef.identifies : Identifies normal WorkEpisodeRef.toValue id := by
  intro first second
  cases first
  cases second
  rw [WorkEpisodeRef.toValue, WorkEpisodeRef.toValue, normalizes.fields]
  · simp [normalizes.ofId.iff]
  · exact ⟨by simp, by simp⟩

@[simp]
theorem WorkEpisodeRef.wellFormed (episode : WorkEpisodeRef) : episode.toValue.WellFormed := by
  refine wellFormed_ofFields (by simp) ?_
  simp

def ContextCandidate.body (candidate : ContextCandidate) : List (String × Option Value) := [
    ("submission_id", some (.ofId candidate.submissionId)),
    ("source_episode", some candidate.sourceEpisode.toValue),
    ("content", some candidate.content.toValue)]

def ContextCandidate.toValue (candidate : ContextCandidate) : Value :=
  .ofFields (("candidate_id", some (.ofId candidate.candidateId)) :: candidate.body)

def NullableTextEdit.toValue : NullableTextEdit → Value
  | .set value => .ofFields [("action", some (.string "set")), ("value", some (.string value))]
  | .clear => .ofFields [("action", some (.string "clear")), ("value", none)]

include normalizes in
theorem NullableTextEdit.identifies : Identifies normal NullableTextEdit.toValue id := by
  intro first second
  cases first <;> cases second <;> refine (normalizes.fields ⟨by simp, by simp⟩).trans ?_ <;>
    simp [normalizes.string]

@[simp]
theorem NullableTextEdit.wellFormed (edit : NullableTextEdit) : edit.toValue.WellFormed := by
  cases edit <;> refine wellFormed_ofFields (by simp) ?_ <;> simp

def OptionalCandidateEdits.toValue (edits : OptionalCandidateEdits) : Value :=
  .ofFields [
    ("kind", edits.kind.map fun kind => .string kind.wireName),
    ("topic_key", edits.topicKey.map NullableTextEdit.toValue),
    ("problem_view", edits.problemView.map NullableTextEdit.toValue),
    ("statement", edits.statement.map .string),
    ("rationale", edits.rationale.map .string),
    ("applicability", edits.applicability.map Applicability.toValue),
    ("assumptions", edits.assumptions.map (.ofList .string)),
    ("recheck_when", edits.recheckWhen.map (.ofList .string)),
    ("hints", edits.hints.map (.ofList .string)),
    ("relations", edits.relations.map (.ofList ContextRelation.toValue)),
    ("evidence", edits.evidence.map (.ofList EvidenceSnapshotDraft.toValue))]

def OptionalCandidateEdits.canonical (edits : OptionalCandidateEdits) : OptionalCandidateEdits :=
  { edits with evidence := edits.evidence.map (List.map EvidenceSnapshotDraft.canonical) }

theorem OptionalCandidateEdits.identifies :
    Identifies Value.canonical OptionalCandidateEdits.toValue
      OptionalCandidateEdits.canonical := by
  intro first second
  have kinds := normalizes_canonical.text ContextKind.wireName_injective
  have applicability := Applicability.identifies normalizes_canonical
  have textEdits := NullableTextEdit.identifies normalizes_canonical
  have relations := (ContextRelation.identifies normalizes_canonical).listOf normalizes_canonical
  have evidence := (EvidenceSnapshotDraft.identifies.ofList normalizes_canonical).optional
    first.evidence second.evidence
  cases first
  cases second
  rw [OptionalCandidateEdits.toValue, OptionalCandidateEdits.toValue, normalizes_canonical.fields]
  · simp only [OptionalCandidateEdits.canonical, OptionalCandidateEdits.mk.injEq, List.map_cons,
      List.map_nil, List.cons.injEq, and_true, kinds.optionalOf, textEdits.optionalOf,
      normalizes_canonical.ofString.optionalOf, applicability.optionalOf,
      normalizes_canonical.texts.optionalOf, relations.optionalOf, evidence]
  · exact ⟨by simp, by simp⟩

theorem OptionalCandidateEdits.wellFormed {edits : OptionalCandidateEdits}
    (contents : ∀ evidence ∈ edits.evidence.getD [], evidence.content.WellFormed) :
    edits.toValue.WellFormed := by
  refine wellFormed_ofFields (by simp) ?_
  have relations (relations : List ContextRelation) :
      (Value.ofList ContextRelation.toValue relations).WellFormed :=
    wellFormed_ofList fun relation _ => relation.wellFormed
  have evidence : ∀ evidence, edits.evidence = some evidence →
      (Value.ofList EvidenceSnapshotDraft.toValue evidence).WellFormed := by
    intro evidence isSome
    rw [isSome] at contents
    exact wellFormed_ofList fun evidence member =>
      EvidenceSnapshotDraft.wellFormed (contents _ member)
  simpa [relations] using evidence

def ContextSpaceAssociationOrigin.toValue : ContextSpaceAssociationOrigin → Value
  | .candidateConfirmation candidateId =>
      .ofFields [
        ("kind", some (.string "candidate_confirmation")),
        ("candidate_id", some (.ofId candidateId))]
  | .correction => .ofFields [("kind", some (.string "correction")), ("candidate_id", none)]

include normalizes in
theorem ContextSpaceAssociationOrigin.identifies :
    Identifies normal ContextSpaceAssociationOrigin.toValue id := by
  intro first second
  cases first <;> cases second <;> refine (normalizes.fields ⟨by simp, by simp⟩).trans ?_ <;>
    simp [normalizes.string, normalizes.ofId.iff]

@[simp]
theorem ContextSpaceAssociationOrigin.wellFormed (origin : ContextSpaceAssociationOrigin) :
    origin.toValue.WellFormed := by
  cases origin <;> refine wellFormed_ofFields (by simp) ?_ <;> simp

def ContextSpaceAssociation.body (association : ContextSpaceAssociation) : List (String × Option Value) := [
    ("context_id", some (.ofId association.contextId)),
    ("primary_space_id", some (.ofId association.primarySpaceId)),
    ("related_space_ids", some (.ofList .ofId association.relatedSpaceIds)),
    ("previous_association_ids", some (.ofList .ofId association.previousAssociationIds)),
    ("origin", some association.origin.toValue)]

def ContextSpaceAssociation.toValue (association : ContextSpaceAssociation) : Value :=
  .ofFields (("association_id", some (.ofId association.associationId)) :: association.body)

def CandidateConfirmationCausalRefs.toValue (refs : CandidateConfirmationCausalRefs) : Value :=
  .ofFields [
    ("space_created_event_id", some (.nullable .ofId refs.spaceCreatedEventId)),
    ("context_revision_event_id", some (.ofId refs.contextRevisionEventId)),
    ("space_association_event_id", some (.ofId refs.spaceAssociationEventId)),
    ("publication_event_id", some (.ofId refs.publicationEventId)),
    ("engineering_reference_event_ids", Value.unlessEmpty .ofId refs.engineeringReferenceEventIds)]

include normalizes in
theorem CandidateConfirmationCausalRefs.identifies :
    Identifies normal CandidateConfirmationCausalRefs.toValue id := by
  intro first second
  cases first
  cases second
  rw [CandidateConfirmationCausalRefs.toValue, CandidateConfirmationCausalRefs.toValue,
    normalizes.fields]
  · simp [normalizes.nullableId.iff, normalizes.ofId.iff,
      normalizes.ofId.unlessEmptyOf normalizes]
  · exact ⟨by simp, by simp⟩

@[simp]
theorem CandidateConfirmationCausalRefs.wellFormed (refs : CandidateConfirmationCausalRefs) :
    refs.toValue.WellFormed := by
  refine wellFormed_ofFields (by simp) ?_
  have created : (Value.nullable .ofId refs.spaceCreatedEventId).WellFormed :=
    wellFormed_nullable fun id _ => wellFormed_ofId id
  have references := @wellFormed_unlessEmpty _ Value.ofId refs.engineeringReferenceEventIds
    fun id _ => wellFormed_ofId id
  simpa [created] using references

def CandidateConfirmation.body (confirmation : CandidateConfirmation) : List (String × Option Value) := [
    ("candidate_id", some (.ofId confirmation.candidateId)),
    ("submission_id", some (.ofId confirmation.submissionId)),
    ("source_episode", some confirmation.sourceEpisode.toValue),
    ("result_context_id", some (.ofId confirmation.resultContextId)),
    ("result_revision_id", some (.ofId confirmation.resultRevisionId)),
    ("primary_space_id", some (.ofId confirmation.primarySpaceId)),
    ("related_space_ids", some (.ofList .ofId confirmation.relatedSpaceIds)),
    ("space_association_id", some (.ofId confirmation.spaceAssociationId)),
    ("publication_id", some (.ofId confirmation.publicationId)),
    ("created_space_id", some (.nullable .ofId confirmation.createdSpaceId)),
    ("edits", some confirmation.edits.toValue),
    ("final_content_hash", some (.string confirmation.finalContentHash)),
    ("causal_refs", some confirmation.causalRefs.toValue)]

def CandidateConfirmation.toValue (confirmation : CandidateConfirmation) : Value :=
  .ofFields (("confirmation_id", some (.ofId confirmation.confirmationId)) :: confirmation.body)

def ArtifactLocator.fields : ArtifactLocator → List (String × Option Value)
  | .file path | .module path => [("path", some (.string path.text))]
  | .api path protocol operation normalizedRoute => [
      ("path", some (.string path.text)),
      ("protocol", some (.string protocol)),
      ("operation", some (.string operation)),
      ("normalized_route", some (.string normalizedRoute))]
  | .schema path namespaceName version qualifiedName => [
      ("path", some (.string path.text)),
      ("namespace", some (.string namespaceName)),
      ("version", some (.string version)),
      ("qualified_name", some (.string qualifiedName))]
  | .symbol path language moduleName enclosingType symbolName signature => [
      ("path", some (.string path.text)),
      ("language", some (.string language)),
      ("module", some (.string moduleName)),
      ("enclosing_type", some (.nullable .string enclosingType)),
      ("symbol_name", some (.string symbolName)),
      ("signature", some (.string signature))]
  | .test path qualifiedTestName => [
      ("path", some (.string path.text)),
      ("qualified_test_name", some (.string qualifiedTestName))]

def ArtifactLocator.toValue (locator : ArtifactLocator) : Value :=
  .ofFields (("locator_kind", some (.string locator.kind.wireName)) :: locator.fields)

theorem ArtifactLocator.fields_distinct (locator : ArtifactLocator) (tag : Option Value) :
    ((("locator_kind", tag) :: locator.fields).map Prod.fst).Nodup := by
  cases locator <;> simp [ArtifactLocator.fields]

theorem ArtifactLocator.fields_keys {first second : ArtifactLocator}
    (sameKind : first.kind = second.kind) :
    first.fields.map Prod.fst = second.fields.map Prod.fst := by
  cases first <;> cases second <;> simp_all [ArtifactLocator.fields, ArtifactLocator.kind]

theorem RepoRelativePath.text_inj {first second : RepoRelativePath} :
    first.text = second.text ↔ first = second := by
  cases first
  cases second
  simp

include normalizes in
theorem ArtifactLocator.identifies : Identifies normal ArtifactLocator.toValue id := by
  intro first second
  constructor
  · intro same
    have kinds := normalizes.field (first.fields_distinct _) (second.fields_distinct _) same
      List.mem_cons_self List.mem_cons_self
    have sameKind : first.kind = second.kind := by
      simpa [normalizes.string, ArtifactKind.wireName_injective.eq_iff] using kinds
    have columns := (normalizes.fields ⟨by simp [fields_keys sameKind],
      first.fields_distinct _⟩).mp same
    cases first <;> cases second <;>
      simp_all [ArtifactLocator.fields, ArtifactLocator.kind, normalizes.string,
        normalizes.nullableText.iff, RepoRelativePath.text_inj]
  · intro same
    rw [id, id] at same
    rw [same]

@[simp]
theorem ArtifactLocator.wellFormed (locator : ArtifactLocator) :
    locator.toValue.WellFormed := by
  refine wellFormed_ofFields (locator.fields_distinct _) ?_
  cases locator with
  | symbol path language moduleName enclosingType symbolName signature =>
      have enclosing : (Value.nullable .string enclosingType).WellFormed :=
        wellFormed_nullable fun text _ => wellFormed_string text
      simp [ArtifactLocator.fields, enclosing]
  | _ => simp [ArtifactLocator.fields]

def EngineeringReference.body (reference : EngineeringReference) : List (String × Option Value) := [
    ("repository_id", some (.string reference.repositoryId.text)),
    ("artifact_kind", some (.string reference.artifactKind.wireName)),
    ("relation", some (.string reference.relation.wireName)),
    ("locator", some reference.locator.toValue),
    ("supports", some (.string reference.supports)),
    ("limitations", some (.ofList .string reference.limitations))]

def EngineeringReference.toValue (reference : EngineeringReference) : Value :=
  .ofFields (("reference_id", some (.ofId reference.referenceId)) :: reference.body)

end Records

end SharedContext
