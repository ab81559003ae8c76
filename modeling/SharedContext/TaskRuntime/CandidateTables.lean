import SharedContext.Domain.CandidateAnalysis
import SharedContext.Domain.ConfirmationPlan
import SharedContext.TaskRuntime.Lineages

/-!
# The Candidate tables of the runtime store

One closed Work Episode has at most one Candidate Build.  The Build splits the
Claims of the Episode into items, each with the `SubmissionId` it is written to
Git under, and duplicates, which are never written.  A Candidate that reached
Git has a Review, may have an analysis, and is confirmed through one reserved
operation; a Task may hold one mapping to the Space its Candidates propose.
Columns that the status of a row determines are the arguments of its
constructor, as the `CHECK` clauses of the schema have them.
-/

namespace SharedContext

/-! ### Closed Episodes -/

inductive WorkEpisodeStatus
  | open_
  | closed (finalCheckpointId : AgentCheckpointId)
  deriving DecidableEq, Repr

/-- An Episode with the Claims of its checkpoints.  Claim identities are fresh
UUIDs, so no two Claims share one. -/
structure WorkEpisodeView where
  ownership : WorkEpisodeRef
  status : WorkEpisodeStatus
  claims : List (AgentCheckpointId × CheckpointClaimId)
  claimsNodup : (claims.map Prod.snd).Nodup
  deriving DecidableEq, Repr

/-! ### Builds -/

inductive CandidateBuildStatus
  | pending
  | complete
  | incomplete
  deriving DecidableEq, Repr

/-- Durable state of one Claim-scoped Candidate creation operation. -/
inductive CandidateBuildItemStatus
  | queued
  | prepared
  | needsEvidence
  | created
  | alreadyExists
  | failed
  deriving DecidableEq, Repr

def CandidateBuildItemStatus.isFinalized : CandidateBuildItemStatus → Bool
  | .created | .alreadyExists => true
  | .queued | .prepared | .needsEvidence | .failed => false

/-- The columns of an item that its status constrains. -/
inductive CandidateBuildItemState
  | queued
  | prepared (contentHash : String)
  | needsEvidence (errorCode : String)
  | created (contentHash : String) (candidateId : CandidateId) (eventId : EventId)
  | alreadyExists (contentHash : String) (candidateId : CandidateId) (eventId : EventId)
  | failed (contentHash : Option String) (errorCode : String)
  deriving DecidableEq, Repr

namespace CandidateBuildItemState

def status : CandidateBuildItemState → CandidateBuildItemStatus
  | queued => .queued
  | prepared _ => .prepared
  | needsEvidence _ => .needsEvidence
  | created .. => .created
  | alreadyExists .. => .alreadyExists
  | failed .. => .failed

def contentHash : CandidateBuildItemState → Option String
  | queued | needsEvidence _ => none
  | prepared contentHash | created contentHash .. | alreadyExists contentHash .. =>
      some contentHash
  | failed contentHash _ => contentHash

def candidateId : CandidateBuildItemState → Option CandidateId
  | created _ candidateId _ | alreadyExists _ candidateId _ => some candidateId
  | queued | prepared _ | needsEvidence _ | failed .. => none

def eventId : CandidateBuildItemState → Option EventId
  | created _ _ eventId | alreadyExists _ _ eventId => some eventId
  | queued | prepared _ | needsEvidence _ | failed .. => none

def errorCode : CandidateBuildItemState → Option String
  | needsEvidence errorCode | failed _ errorCode => some errorCode
  | queued | prepared _ | created .. | alreadyExists .. => none

/-- The `CHECK` clause of `candidate_build_item`: the state with these columns,
if they agree. -/
def ofColumns (contentHash : Option String) (status : CandidateBuildItemStatus)
    (candidateId : Option CandidateId) (eventId : Option EventId)
    (errorCode : Option String) : Result CandidateBuildItemState :=
  match status, contentHash, candidateId, eventId, errorCode with
  | .queued, none, none, none, none => .ok queued
  | .prepared, some contentHash, none, none, none => .ok (prepared contentHash)
  | .needsEvidence, none, none, none, some errorCode => .ok (needsEvidence errorCode)
  | .created, some contentHash, some candidateId, some eventId, none =>
      .ok (created contentHash candidateId eventId)
  | .alreadyExists, some contentHash, some candidateId, some eventId, none =>
      .ok (alreadyExists contentHash candidateId eventId)
  | .failed, contentHash, none, none, some errorCode => .ok (failed contentHash errorCode)
  | _, _, _, _, _ =>
      .error (sqlError "write Candidate Build item" ("CHECK constraint failed: " ++
        "candidate_build_item"))

theorem ofColumns_eq_ok {contentHash : Option String} {status : CandidateBuildItemStatus}
    {candidateId : Option CandidateId} {eventId : Option EventId} {errorCode : Option String}
    {state : CandidateBuildItemState}
    (checked : ofColumns contentHash status candidateId eventId errorCode = .ok state) :
    state.contentHash = contentHash ∧ state.status = status ∧
      state.candidateId = candidateId ∧ state.eventId = eventId ∧
      state.errorCode = errorCode := by
  unfold ofColumns at checked
  split at checked <;> cases checked <;> exact ⟨rfl, rfl, rfl, rfl, rfl⟩

theorem candidateId_eq_none {state : CandidateBuildItemState} :
    state.candidateId = none ↔ state.status.isFinalized = false := by
  cases state <;> simp [candidateId, status, CandidateBuildItemStatus.isFinalized]

end CandidateBuildItemState

structure CandidateBuildRow where
  buildId : CandidateBuildId
  sourceEpisode : WorkEpisodeRef
  finalCheckpointId : AgentCheckpointId
  status : CandidateBuildStatus
  deriving DecidableEq, Repr

/-- One durable Claim-scoped build item and its stable submission identity. -/
structure CandidateBuildItemRow where
  buildId : CandidateBuildId
  itemOrdinal : Nat
  checkpointId : AgentCheckpointId
  claimId : CheckpointClaimId
  submissionId : SubmissionId
  state : CandidateBuildItemState
  deriving DecidableEq, Repr

def CandidateBuildItemRow.key (row : CandidateBuildItemRow) :
    CandidateBuildId × CheckpointClaimId :=
  (row.buildId, row.claimId)

/-- One durable Claim-scoped deduplication decision of a Build. -/
structure CandidateBuildDuplicateRow where
  buildId : CandidateBuildId
  duplicateOrdinal : Nat
  checkpointId : AgentCheckpointId
  claimId : CheckpointClaimId
  duplicateOfCandidateId : CandidateId
  similarityBasisPoints : Nat
  deriving DecidableEq, Repr

def CandidateBuildDuplicateRow.key (row : CandidateBuildDuplicateRow) :
    CandidateBuildId × CheckpointClaimId :=
  (row.buildId, row.claimId)

/-! ### Reviews and confirmations -/

/-- Who decided: an explicit human choice, or the session Agent inside its
permissions. -/
inductive DecisionSource
  | human
  | agentPolicy
  deriving DecidableEq, Repr

/-- The columns of a Review that its status constrains. -/
inductive CandidateReviewDecision
  | pending
  | discarded (discardReason : String) (discardedAtUnixSeconds : Nat)
  | expired (discardReason : Option String) (discardedAtUnixSeconds : Option Nat)
      (expiredAtUnixSeconds : Nat)
  | confirmed (confirmationId : ConfirmationId) (resultContextId : ContextId)
  deriving DecidableEq, Repr

namespace CandidateReviewDecision

def status : CandidateReviewDecision → CandidateReviewStatus
  | pending => .pending
  | discarded .. => .discarded
  | expired .. => .expired
  | confirmed .. => .confirmed

def discardReason : CandidateReviewDecision → Option String
  | discarded discardReason _ => some discardReason
  | expired discardReason .. => discardReason
  | pending | confirmed .. => none

def discardedAtUnixSeconds : CandidateReviewDecision → Option Nat
  | discarded _ discardedAtUnixSeconds => some discardedAtUnixSeconds
  | expired _ discardedAtUnixSeconds _ => discardedAtUnixSeconds
  | pending | confirmed .. => none

def confirmationId : CandidateReviewDecision → Option ConfirmationId
  | confirmed confirmationId _ => some confirmationId
  | pending | discarded .. | expired .. => none

def resultContextId : CandidateReviewDecision → Option ContextId
  | confirmed _ resultContextId => some resultContextId
  | pending | discarded .. | expired .. => none

end CandidateReviewDecision

/-- Minimal durable discovery record of one finalized automatic Candidate. -/
structure CandidateReviewRecord where
  candidateId : CandidateId
  submissionId : SubmissionId
  sourceEpisode : WorkEpisodeRef
  buildId : CandidateBuildId
  finalCheckpointId : AgentCheckpointId
  checkpointId : AgentCheckpointId
  claimId : CheckpointClaimId
  reviewVersion : Nat
  decision : CandidateReviewDecision
  createdAtUnixSeconds : Nat
  expiresAtUnixSeconds : Nat
  decisionSource : Option DecisionSource
  deriving DecidableEq, Repr

def CandidateReviewRecord.status (record : CandidateReviewRecord) : CandidateReviewStatus :=
  record.decision.status

structure CandidateAnalysisRow where
  candidateId : CandidateId
  episodeId : WorkEpisodeId
  analysisGeneration : Nat
  analysisStatus : CandidateAnalysisStatus
  deriving DecidableEq, Repr

inductive CandidateConfirmationOperationStatus
  | reserved
  | committed
  deriving DecidableEq, Repr

structure CandidateConfirmationOperationRow where
  candidateId : CandidateId
  reviewParentVersion : Nat
  operationHash : String
  planHash : String
  plan : CandidateConfirmationPlan
  status : CandidateConfirmationOperationStatus
  deriving Repr

inductive ProposedSpaceGroupMappingStatus
  | reserved
  | committed
  deriving DecidableEq, Repr

structure ProposedSpaceGroupMapping where
  proposedSpaceGroupKey : ProposedSpaceGroupKey
  taskId : TaskId
  intentRevisionId : TaskIntentRevisionId
  candidateId : CandidateId
  spaceId : SpaceId
  status : ProposedSpaceGroupMappingStatus
  deriving DecidableEq, Repr

/-- The tables of Builds, Reviews and confirmations. -/
structure CandidateTables where
  candidateBuild : Table CandidateBuildRow CandidateBuildRow.buildId
  candidateBuildItem : Table CandidateBuildItemRow CandidateBuildItemRow.key
  candidateBuildDuplicate : Table CandidateBuildDuplicateRow CandidateBuildDuplicateRow.key
  candidateReview : Table CandidateReviewRecord CandidateReviewRecord.candidateId
  candidateAnalysis : Table CandidateAnalysisRow CandidateAnalysisRow.candidateId
  candidateConfirmationOperation :
    Table CandidateConfirmationOperationRow CandidateConfirmationOperationRow.candidateId
  proposedSpaceGroup :
    Table ProposedSpaceGroupMapping ProposedSpaceGroupMapping.proposedSpaceGroupKey

def CandidateTables.empty : CandidateTables :=
  ⟨.empty, .empty, .empty, .empty, .empty, .empty, .empty⟩

end SharedContext
