import SharedContext.Domain.Model

/-!
# Candidates and their confirmation

A Candidate is an unassigned Context draft.  Confirming it turns the draft,
after optional field replacements, into a published Context revision; the
confirmation names every sibling event of that closure.
-/

namespace SharedContext

/-- Ownership of the closed Work Episode a Candidate was built from. -/
structure WorkEpisodeRef where
  episodeId : WorkEpisodeId
  taskSessionId : TaskSessionId
  taskId : TaskId
  deriving DecidableEq, Repr

/-- The parts of content hashing that live in external crates: the JSON
encoders derived by `serde` and the lower-case hexadecimal SHA-256 digest. -/
structure ContentHasher where
  draftToVec : ContextRevisionDraft → List UInt8
  submissionToVec : WorkEpisodeRef → ContextRevisionDraft → List UInt8
  sha256Hex : List UInt8 → String

/-- Hashes the authoritative Context draft semantics. -/
def contextRevisionContentHash (hasher : ContentHasher) (draft : ContextRevisionDraft) : String :=
  "sha256:" ++ hasher.sha256Hex (hasher.draftToVec draft)

/-- Hashes exactly the closed Episode ownership and the complete draft. -/
def candidateSubmissionContentHash (hasher : ContentHasher) (sourceEpisode : WorkEpisodeRef)
    (content : ContextRevisionDraft) : String :=
  "sha256:" ++ hasher.sha256Hex (hasher.submissionToVec sourceEpisode content)

/-- An unassigned Context Candidate. -/
structure ContextCandidate where
  candidateId : CandidateId
  submissionId : SubmissionId
  sourceEpisode : WorkEpisodeRef
  content : ContextRevisionDraft
  deriving Repr

namespace ContextCandidate

def validate (candidate : ContextCandidate) : Result Unit :=
  candidate.content.validate

def submissionContentHash (hasher : ContentHasher) (candidate : ContextCandidate) : String :=
  candidateSubmissionContentHash hasher candidate.sourceEpisode candidate.content

end ContextCandidate

/-- Explicit replacement for a nullable Candidate text field. -/
inductive NullableTextEdit
  | set (value : String)
  | clear
  deriving DecidableEq, Repr

abbrev TopicKeyEdit := NullableTextEdit
abbrev ProblemViewEdit := NullableTextEdit

/-- The field after an optional replacement. -/
def NullableTextEdit.apply : Option NullableTextEdit → Option String → Option String
  | some (.set value), _ => some value
  | some .clear, _ => none
  | none, source => source

/-- Field-level replacements applied to a Candidate draft at confirmation.
Absence preserves the Candidate field. -/
structure OptionalCandidateEdits where
  kind : Option ContextKind
  topicKey : Option TopicKeyEdit
  problemView : Option ProblemViewEdit
  statement : Option String
  rationale : Option String
  applicability : Option Applicability
  assumptions : Option (List String)
  recheckWhen : Option (List String)
  hints : Option (List String)
  relations : Option (List ContextRelation)
  evidence : Option (List EvidenceSnapshotDraft)
  deriving Repr

/-- Applies the supplied replacements and validates the complete draft. -/
def OptionalCandidateEdits.apply (edits : OptionalCandidateEdits)
    (source : ContextRevisionDraft) : Result ContextRevisionDraft := do
  let result : ContextRevisionDraft :=
    { kind := edits.kind.getD source.kind
      topicKey := NullableTextEdit.apply edits.topicKey source.topicKey
      problemView := NullableTextEdit.apply edits.problemView source.problemView
      statement := edits.statement.getD source.statement
      rationale := edits.rationale.getD source.rationale
      applicability := edits.applicability.getD source.applicability
      assumptions := edits.assumptions.getD source.assumptions
      recheckWhen := edits.recheckWhen.getD source.recheckWhen
      hints := edits.hints.getD source.hints
      relations := edits.relations.getD source.relations
      evidence := edits.evidence.getD source.evidence }
  result.validate
  pure result

/-- Why one Context-to-Space association snapshot exists. -/
inductive ContextSpaceAssociationOrigin
  | candidateConfirmation (candidateId : CandidateId)
  | correction
  deriving DecidableEq, Repr

/-- One immutable, causally revisable Context organization fact. -/
structure ContextSpaceAssociation where
  associationId : SpaceAssociationId
  contextId : ContextId
  primarySpaceId : SpaceId
  relatedSpaceIds : List SpaceId
  previousAssociationIds : List SpaceAssociationId
  origin : ContextSpaceAssociationOrigin
  deriving DecidableEq, Repr

def ContextSpaceAssociation.validate (association : ContextSpaceAssociation) : Result Unit := do
  requireUnique association.relatedSpaceIds "context_space_association.related_space_ids"
  if association.primarySpaceId ∈ association.relatedSpaceIds then
    throw (invalid "Context Space Association Related Spaces must not include Primary")
  requireUnique association.previousAssociationIds
    "context_space_association.previous_association_ids"
  match association.origin with
  | .candidateConfirmation _ =>
      if !association.previousAssociationIds.isEmpty then
        throw (invalid "Candidate-origin Context Space Association must be initial")
  | .correction =>
      if association.previousAssociationIds.isEmpty then
        throw (invalid "corrected Context Space Association requires a causal parent")

/-- Exact sibling events that causally close one Candidate confirmation. -/
structure CandidateConfirmationCausalRefs where
  spaceCreatedEventId : Option EventId
  contextRevisionEventId : EventId
  spaceAssociationEventId : EventId
  publicationEventId : EventId
  engineeringReferenceEventIds : List EventId
  deriving DecidableEq, Repr

def CandidateConfirmationCausalRefs.validate (refs : CandidateConfirmationCausalRefs) :
    Result Unit :=
  requireUnique
    ([refs.contextRevisionEventId, refs.spaceAssociationEventId, refs.publicationEventId] ++
      refs.spaceCreatedEventId.toList ++ refs.engineeringReferenceEventIds)
    "candidate_confirmation.causal_refs"

/-- Immutable fact that one Candidate became one accepted Context revision. -/
structure CandidateConfirmation where
  confirmationId : ConfirmationId
  candidateId : CandidateId
  submissionId : SubmissionId
  sourceEpisode : WorkEpisodeRef
  resultContextId : ContextId
  resultRevisionId : RevisionId
  primarySpaceId : SpaceId
  relatedSpaceIds : List SpaceId
  spaceAssociationId : SpaceAssociationId
  publicationId : PublicationId
  createdSpaceId : Option SpaceId
  edits : OptionalCandidateEdits
  finalContentHash : String
  causalRefs : CandidateConfirmationCausalRefs
  deriving Repr

/-- `sha256:` followed by sixty-four ASCII hexadecimal digits. -/
def validContentHash (value : String) : Bool :=
  "sha256:".toList.isPrefixOf value.toList &&
    let digest := value.toList.drop 7
    digest.length == 64 &&
      digest.all fun character =>
        character.isDigit || ('a' ≤ character && character ≤ 'f') ||
          ('A' ≤ character && character ≤ 'F')

def CandidateConfirmation.validate (confirmation : CandidateConfirmation) : Result Unit := do
  requireUnique confirmation.relatedSpaceIds "candidate_confirmation.related_space_ids"
  if confirmation.primarySpaceId ∈ confirmation.relatedSpaceIds then
    throw (invalid "Candidate Confirmation Related Spaces must not include Primary")
  match confirmation.createdSpaceId, confirmation.causalRefs.spaceCreatedEventId with
  | some created, some _ =>
      if created ≠ confirmation.primarySpaceId then
        throw (invalid
          "Candidate Confirmation created Space and causal Event must both identify new Primary")
  | none, none => pure ()
  | _, _ =>
      throw (invalid
        "Candidate Confirmation created Space and causal Event must both identify new Primary")
  if !validContentHash confirmation.finalContentHash then
    throw (invalid "Candidate Confirmation final content hash must be canonical sha256")
  confirmation.causalRefs.validate

end SharedContext
