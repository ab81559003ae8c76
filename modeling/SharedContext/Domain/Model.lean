import SharedContext.Domain.Engineering
import SharedContext.Domain.Json

/-!
# Authoritative snapshots

The immutable contents of domain events: Intents, Context revisions with
their evidence, reviews, publications, semantic conflicts and resolutions,
each with the local checks that parsing an event runs.
-/

namespace SharedContext

/-- Complete authoritative snapshot of a Space intent. -/
structure IntentSnapshot where
  title : String
  problem : String
  desiredOutcome : String
  inScope : List String
  outOfScope : List String
  acceptanceConditions : List String
  domainTerms : List String
  deriving DecidableEq, Repr

def IntentSnapshot.validate (intent : IntentSnapshot) : Result Unit := do
  requireText intent.title "intent.title"
  requireText intent.problem "intent.problem"
  requireText intent.desiredOutcome "intent.desired_outcome"
  if intent.inScope.isEmpty then
    throw (invalid "intent.in_scope must contain at least one item")
  if intent.acceptanceConditions.isEmpty then
    throw (invalid "intent.acceptance_conditions must contain at least one item")
  requireTextItems intent.inScope "intent.in_scope"
  requireTextItems intent.outOfScope "intent.out_of_scope"
  requireTextItems intent.acceptanceConditions "intent.acceptance_conditions"
  requireTextItems intent.domainTerms "intent.domain_terms"

structure IntentRevision where
  revisionId : RevisionId
  parentRevisionIds : List RevisionId
  intent : IntentSnapshot
  provisional : Bool
  deriving DecidableEq, Repr

def IntentRevision.validate (revision : IntentRevision) : Result Unit := do
  requireUnique revision.parentRevisionIds "intent_revision.parent_revision_ids"
  revision.intent.validate

inductive ContextKind
  | decision
  | contract
  | issue
  | risk
  | validation
  | discovery
  | progress
  deriving DecidableEq, Repr

/-- Self-contained applicability snapshot stored with a revision or conflict. -/
structure Applicability where
  domains : List String
  platforms : List String
  conditions : List String
  deriving DecidableEq, Repr

def Applicability.validate (applicability : Applicability) (field : String) : Result Unit := do
  requireTextItems applicability.domains s!"{field}.domains"
  requireTextItems applicability.platforms s!"{field}.platforms"
  requireTextItems applicability.conditions s!"{field}.conditions"

/-- Supported forms of self-contained evidence. -/
inductive EvidenceType
  | sourceSnapshot
  | experimentRecord
  | artifactSnapshot
  deriving DecidableEq, Repr

/-- Evidence content before an Evidence ID is assigned. -/
structure EvidenceSnapshotDraft where
  kind : EvidenceType
  supports : String
  content : Value
  interpretation : String
  limitations : List String
  deriving Repr

def EvidenceSnapshotDraft.validate (evidence : EvidenceSnapshotDraft) (field : String) :
    Result Unit := do
  requireText evidence.supports s!"{field}.supports"
  requireText evidence.interpretation s!"{field}.interpretation"
  requireTextItems evidence.limitations s!"{field}.limitations"
  if !evidence.content.isNonEmptyObject then
    throw (invalid s!"{field}.content must be a non-empty JSON object")

/-- Immutable evidence snapshot embedded in a Context revision. -/
structure EvidenceSnapshot where
  evidenceId : EvidenceId
  kind : EvidenceType
  supports : String
  content : Value
  interpretation : String
  limitations : List String
  deriving Repr

/-- The evidence content without its identity. -/
def EvidenceSnapshot.asDraft (evidence : EvidenceSnapshot) : EvidenceSnapshotDraft where
  kind := evidence.kind
  supports := evidence.supports
  content := evidence.content
  interpretation := evidence.interpretation
  limitations := evidence.limitations

/-- Context content before revision and evidence IDs are assigned. -/
structure ContextRevisionDraft where
  kind : ContextKind
  topicKey : Option String
  problemView : Option String
  statement : String
  rationale : String
  applicability : Applicability
  assumptions : List String
  recheckWhen : List String
  hints : List String
  relations : List ContextRelation
  evidence : List EvidenceSnapshotDraft
  deriving Repr

def ContextRevisionDraft.validate (draft : ContextRevisionDraft) : Result Unit := do
  validateOptionalText draft.topicKey "context revision topic_key"
  validateOptionalText draft.problemView "context revision problem_view"
  requireText draft.statement "context revision statement"
  requireText draft.rationale "context revision rationale"
  draft.applicability.validate "context revision applicability"
  requireTextItems draft.assumptions "context revision assumptions"
  requireTextItems draft.recheckWhen "context revision recheck_when"
  requireTextItems draft.hints "context revision hints"
  draft.relations.zipIdx.forM fun (relation, index) =>
    relation.validate.context fun error =>
      s!"context revision relations[{index}] is invalid: {error}"
  requireUnique (draft.relations.map fun relation => (relation.targetContextId, relation.kind))
    "context revision relations target/kind"
  if draft.evidence.isEmpty then
    throw (invalid "context revision evidence must contain at least one snapshot")
  draft.evidence.zipIdx.forM fun (evidence, index) =>
    evidence.validate s!"context revision evidence[{index}]"

structure ContextRevision where
  revisionId : RevisionId
  parentRevisionIds : List RevisionId
  kind : ContextKind
  topicKey : Option String
  problemView : Option String
  statement : String
  rationale : String
  applicability : Applicability
  assumptions : List String
  recheckWhen : List String
  hints : List String
  relations : List ContextRelation
  evidence : List EvidenceSnapshot
  deriving Repr

/-- Reconstructs the authoritative draft semantics of a Context revision. -/
def contextRevisionAsDraft (revision : ContextRevision) : ContextRevisionDraft where
  kind := revision.kind
  topicKey := revision.topicKey
  problemView := revision.problemView
  statement := revision.statement
  rationale := revision.rationale
  applicability := revision.applicability
  assumptions := revision.assumptions
  recheckWhen := revision.recheckWhen
  hints := revision.hints
  relations := revision.relations
  evidence := revision.evidence.map EvidenceSnapshot.asDraft

def ContextRevision.validate (revision : ContextRevision) : Result Unit := do
  requireUnique revision.parentRevisionIds "revision.parent_revision_ids"
  requireUnique (revision.evidence.map EvidenceSnapshot.evidenceId)
    "revision.evidence evidence_id"
  (contextRevisionAsDraft revision).validate

inductive ReviewVerdict
  | approve
  | reject
  deriving DecidableEq, Repr

structure Review where
  reviewId : ReviewId
  revisionId : RevisionId
  verdict : ReviewVerdict
  reason : String
  deriving DecidableEq, Repr

def Review.validate (review : Review) : Result Unit :=
  requireText review.reason "review.reason"

inductive PublicationAction
  | publish
  | withdraw
  deriving DecidableEq, Repr

structure Publication where
  publicationId : PublicationId
  previousPublicationIds : List PublicationId
  action : PublicationAction
  revisionId : RevisionId
  reviewEventIds : List EventId
  deriving DecidableEq, Repr

def Publication.validate (publication : Publication) : Result Unit := do
  requireUnique publication.previousPublicationIds "publication.previous_publication_ids"
  requireUnique publication.reviewEventIds "publication.review_event_ids"

/-- One accepted Context, revision and publication head in a semantic conflict. -/
structure ConflictParticipant where
  contextId : ContextId
  revisionId : RevisionId
  publicationId : PublicationId
  deriving DecidableEq, Repr

structure SemanticConflict where
  conflictId : ConflictId
  participants : List ConflictParticipant
  reason : String
  applicability : Applicability
  deriving DecidableEq, Repr

def SemanticConflict.validate (conflict : SemanticConflict) : Result Unit := do
  if conflict.participants.length < 2 then
    throw (invalid "semantic conflict must contain at least two participants")
  requireUnique conflict.participants "semantic_conflict.participants"
  requireUnique (conflict.participants.map ConflictParticipant.contextId)
    "semantic_conflict participant context_id"
  requireUnique (conflict.participants.map ConflictParticipant.publicationId)
    "semantic_conflict participant publication_id"
  requireText conflict.reason "semantic_conflict.reason"
  conflict.applicability.validate "semantic_conflict.applicability"

/-- How one Context participates in a semantic-conflict resolution. -/
inductive ResolutionOutcome
  | retained
  | revised
  | withdrawn
  | scopeSplit
  deriving DecidableEq, Repr

/-- Explicit result for one Context and revision. -/
structure ConflictResolutionResult where
  contextId : ContextId
  revisionId : RevisionId
  outcome : ResolutionOutcome
  deriving DecidableEq, Repr

/-- Immutable semantic-conflict resolution node. -/
structure ConflictResolution where
  resolutionId : ResolutionId
  previousResolutionIds : List ResolutionId
  relatedPublicationIds : List PublicationId
  results : List ConflictResolutionResult
  rationale : String
  deriving DecidableEq, Repr

def ConflictResolution.validate (resolution : ConflictResolution) : Result Unit := do
  requireUnique resolution.previousResolutionIds "resolution.previous_resolution_ids"
  if resolution.relatedPublicationIds.isEmpty then
    throw (invalid "resolution.related_publication_ids must contain at least one head")
  requireUnique resolution.relatedPublicationIds "resolution.related_publication_ids"
  if resolution.results.isEmpty then
    throw (invalid "resolution.results must contain at least one result")
  requireUnique resolution.results "resolution.results"
  requireUnique (resolution.results.map ConflictResolutionResult.contextId)
    "resolution result context_id"
  requireText resolution.rationale "resolution.rationale"

end SharedContext
