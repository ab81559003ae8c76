import SharedContext.TaskRuntime.CandidateBuilds

/-!
# Reviews, confirmations and proposed Space groups

A Pending Review is discarded, expires, or is confirmed in two transactions
around a Git write: the reservation persists the complete plan, finalization
marks the operation and its Review terminal.  A reservation may also bind the
Task to the new Space of its plan.  Reservations and discards first sweep
expired Reviews in a transaction of its own.  A version read from the store fits
its column, so its conversion back never fails.
-/

namespace SharedContext

/-! ### Reading -/

section Reading

variable (hasher : PlanHasher) (fromTask : TaskId → ProposedSpaceGroupKey)

def readCandidateReviewRecord (tables : CandidateTables) (candidateId : CandidateId) :
    Option CandidateReviewRecord :=
  tables.candidateReview.find? candidateId

/-- The columns beside the plan repeat what the plan says. -/
def CandidateConfirmationOperationRow.metadataAgrees
    (row : CandidateConfirmationOperationRow) : Prop :=
  row.plan.operationHash = row.operationHash ∧ row.plan.planHash hasher = row.planHash ∧
    row.plan.operation.candidateId = row.candidateId ∧
    row.plan.operation.reviewParentVersion = row.reviewParentVersion

instance (row : CandidateConfirmationOperationRow) : Decidable (row.metadataAgrees hasher) := by
  unfold CandidateConfirmationOperationRow.metadataAgrees
  infer_instance

def readCandidateConfirmationOperation (tables : CandidateTables) (candidateId : CandidateId) :
    Result (Option CandidateConfirmationOperationRow) :=
  match tables.candidateConfirmationOperation.find? candidateId with
  | none => .ok none
  | some row => do
      row.plan.validate hasher
      Result.require (row.metadataAgrees hasher)
        (invariantViolation
          "persisted Candidate Confirmation operation metadata disagrees with plan")
      pure (some row)

def parseProposedSpaceGroupMapping (mapping : ProposedSpaceGroupMapping) :
    Result (Option ProposedSpaceGroupMapping) := do
  Result.require (mapping.proposedSpaceGroupKey = fromTask mapping.taskId)
    (invariantViolation "persisted proposed Space group key disagrees with Task ownership")
  pure (some mapping)

def readProposedSpaceGroupMapping (tables : CandidateTables) (key : ProposedSpaceGroupKey) :
    Result (Option ProposedSpaceGroupMapping) :=
  match tables.proposedSpaceGroup.find? key with
  | none => .ok none
  | some mapping => parseProposedSpaceGroupMapping fromTask mapping

def readProposedSpaceGroupMappingForCandidate (tables : CandidateTables)
    (candidateId : CandidateId) : Result (Option ProposedSpaceGroupMapping) :=
  match tables.proposedSpaceGroup.rows.find? fun mapping =>
      mapping.candidateId = candidateId with
  | none => .ok none
  | some mapping => parseProposedSpaceGroupMapping fromTask mapping

end Reading

/-! ### Expiry -/

structure CandidateReviewCleanup where
  expiredCandidateIds : List CandidateId
  removedAnalysisCount : Nat
  deriving DecidableEq, Repr

def CandidateReviewRecord.isExpired (now : Nat) (record : CandidateReviewRecord) : Bool :=
  (record.status = .pending || record.status = .discarded) && record.expiresAtUnixSeconds ≤ now

def CandidateReviewRecord.expire (now : Nat) (record : CandidateReviewRecord) :
    CandidateReviewRecord :=
  { record with
    reviewVersion := record.reviewVersion + 1
    decision := .expired record.decision.discardReason record.decision.discardedAtUnixSeconds
      now }

/-- Expires retained Pending and Discarded Reviews and removes their analysis. -/
def cleanupExpiredCandidateReviewsAt (tables : CandidateTables) (now : Nat) :
    Result (CandidateTables × CandidateReviewCleanup) := do
  Result.require (now < ordinalBound)
    (invalid "Candidate Review cleanup time exceeds SQLite range")
  let expired := (tables.candidateReview.rows.filter (·.isExpired now)).map (·.candidateId)
  let hasExpired (row : CandidateAnalysisRow) : Bool := row.candidateId ∈ expired
  pure
    ({ tables with
        candidateAnalysis := tables.candidateAnalysis.deleteWhere hasExpired
        candidateReview := tables.candidateReview.updateWhere (·.isExpired now) (·.expire now)
          (fun _ => rfl) },
      ⟨expired.insertionSort (· ≤ ·), tables.candidateAnalysis.rows.countP hasExpired⟩)

/-! ### Ownership -/

section Ownership

variable (text : IntentText)

/-- The active Task of a Session, provided the caller names it and its Head. -/
def requireActiveTask (runtime : RuntimeDatabase) (locator : ExternalSessionLocator)
    (expectedTaskId : TaskId) (expectedIntentRevisionId : TaskIntentRevisionId)
    (staleMessage : String) : Result TaskSessionSnapshot := do
  match findActiveTaskByLocator runtime.lineages locator with
  | none => throw (invalid "ExternalSession has no ActiveTask")
  | some taskSessionId =>
      let task ← requireSnapshot text runtime taskSessionId
      Result.require
        (task.taskId = expectedTaskId ∧
          task.currentIntentRevision.map (·.revisionId) = some expectedIntentRevisionId)
        (stale staleMessage)
      pure task

/-- The Review of a Candidate, provided it belongs to the Task. -/
def requireTaskReview (tables : CandidateTables) (task : TaskSessionSnapshot)
    (candidateId : CandidateId) : Result CandidateReviewRecord :=
  match readCandidateReviewRecord tables candidateId with
  | none => .error (invalid "Candidate Review does not exist for the ActiveTask")
  | some review => do
      Result.require
        (review.sourceEpisode.taskSessionId = task.taskSessionId ∧
          review.sourceEpisode.taskId = task.taskId)
        (invalid "Candidate Review does not belong to the ExternalSession ActiveTask")
      pure review

end Ownership

/-! ### Reservation -/

section Reservation

variable (text : IntentText) (hasher : PlanHasher) (fromTask : TaskId → ProposedSpaceGroupKey)

/-- Recovery guidance for every proposed Space group rejection a caller can
actually repair. -/
def proposedSpaceGroupRecovery : String :=
  ("proposed Space group does not belong to this Task: use candidate_get to refresh " ++
    "recommendations, or confirm into an existing Space with primary.existing_space_id")

/-- Insert a mapping; its key, its Candidate and its Task revision must be free. -/
def insertProposedSpaceGroup (tables : CandidateTables) (mapping : ProposedSpaceGroupMapping) :
    Result CandidateTables := do
  Result.require
    (∀ other ∈ tables.proposedSpaceGroup.rows, other.candidateId ≠ mapping.candidateId)
    (sqlError "reserve proposed Space group" ("UNIQUE constraint failed: " ++
      "proposed_space_group.candidate_id"))
  Result.require
    (∀ other ∈ tables.proposedSpaceGroup.rows, other.taskId = mapping.taskId →
      other.intentRevisionId ≠ mapping.intentRevisionId)
    (sqlError "reserve proposed Space group" ("UNIQUE constraint failed: " ++
      "proposed_space_group.task_id, proposed_space_group.intent_revision_id"))
  match tables.proposedSpaceGroup.insert mapping with
  | some proposedSpaceGroup => pure { tables with proposedSpaceGroup }
  | none =>
      throw (sqlError "reserve proposed Space group" ("UNIQUE constraint failed: " ++
        "proposed_space_group.proposed_space_group_key"))

/-- Bind the group of a Task to the new Space of a plan.  The key names the Task
only, but the mapping found under it is compared with the current Head too. -/
def reserveProposedSpaceGroup (tables : CandidateTables) (key : ProposedSpaceGroupKey)
    (taskId : TaskId) (intentRevisionId : TaskIntentRevisionId)
    (plan : CandidateConfirmationPlan) : Result CandidateTables := do
  Result.require (key = fromTask taskId) (invalid proposedSpaceGroupRecovery)
  match plan.confirmation.createdSpaceId with
  | none => throw (invalid "proposed Space group requires a new Primary Space plan")
  | some spaceId =>
      Result.require (spaceId = plan.confirmation.primarySpaceId)
        (invariantViolation "proposed Space group plan does not create its Primary Space")
      match ← readProposedSpaceGroupMapping fromTask tables key with
      | some existing =>
          Result.require
            (existing.taskId = taskId ∧ existing.intentRevisionId = intentRevisionId ∧
              existing.candidateId = plan.operation.candidateId ∧ existing.spaceId = spaceId)
            ⟨.conflict, ("proposed Space group is already reserved by another Candidate of this " ++
              "Task: use candidate_get to refresh recommendations, or confirm into an existing " ++
              "Space with primary.existing_space_id")⟩
          pure tables
      | none =>
          insertProposedSpaceGroup tables
            ⟨key, taskId, intentRevisionId, plan.operation.candidateId, spaceId, .reserved⟩

def reserveOptionalSpaceGroup (tables : CandidateTables) (key : Option ProposedSpaceGroupKey)
    (taskId : TaskId) (intentRevisionId : TaskIntentRevisionId)
    (plan : CandidateConfirmationPlan) : Result CandidateTables :=
  match key with
  | some key => reserveProposedSpaceGroup fromTask tables key taskId intentRevisionId plan
  | none => .ok tables

structure ConfirmationRequest where
  locator : ExternalSessionLocator
  expectedTaskId : TaskId
  expectedIntentRevisionId : TaskIntentRevisionId
  plan : CandidateConfirmationPlan
  proposedSpaceGroupKey : Option ProposedSpaceGroupKey

structure CandidateConfirmationReservation where
  operation : CandidateConfirmationOperationRow
  created : Bool

def ConfirmationRequest.validate (request : ConfirmationRequest) : Result Unit := do
  request.locator.validate
  request.plan.validate hasher

/-- The first reservation of a Candidate: its Review is Pending at the version
of the plan, and its analysis is complete and current. -/
def reserveNewOperation (tables : CandidateTables) (request : ConfirmationRequest)
    (review : CandidateReviewRecord) :
    Result (CandidateTables × CandidateConfirmationReservation) := do
  let plan := request.plan
  let candidateId := plan.operation.candidateId
  let tables ← reserveOptionalSpaceGroup fromTask tables request.proposedSpaceGroupKey
    request.expectedTaskId request.expectedIntentRevisionId plan
  Result.require (review.status = .pending)
    ⟨.conflict, "Only a Pending Candidate Review can be confirmed"⟩
  Result.require (review.reviewVersion = plan.operation.reviewParentVersion)
    (stale "Candidate Review version is stale for confirmation")
  match tables.candidateAnalysis.find? candidateId with
  | none => throw (invalid "Candidate Confirmation requires completed analysis")
  | some analysis =>
      Result.require
        (analysis.analysisStatus = .complete ∧
          analysis.analysisGeneration = plan.operation.analysisGeneration)
        (stale "Candidate Confirmation analysis generation is not current and complete")
      match tables.candidateConfirmationOperation.insert
          ⟨candidateId, plan.operation.reviewParentVersion, plan.operationHash,
            plan.planHash hasher, plan, .reserved⟩ with
      | none =>
          throw (sqlError "reserve Candidate Confirmation operation" ("UNIQUE constraint failed: " ++
            "candidate_confirmation_operation.candidate_id"))
      | some candidateConfirmationOperation =>
          let tables := { tables with candidateConfirmationOperation }
          match ← readCandidateConfirmationOperation hasher tables candidateId with
          | none =>
              throw (invariantViolation
                "reserved Candidate Confirmation operation disappeared")
          | some operation => pure (tables, ⟨operation, true⟩)

def reserveInTransaction (runtime : RuntimeDatabase) (tables : CandidateTables)
    (request : ConfirmationRequest) :
    Result (CandidateTables × CandidateConfirmationReservation) := do
  let task ← requireActiveTask text runtime request.locator request.expectedTaskId
    request.expectedIntentRevisionId
    "Candidate Confirmation Task/Intent ownership CAS is stale"
  let candidateId := request.plan.operation.candidateId
  let review ← requireTaskReview tables task candidateId
  match ← readCandidateConfirmationOperation hasher tables candidateId with
  | some existing =>
      Result.require (existing.operationHash = request.plan.operationHash)
        ⟨.conflict, "Candidate Confirmation operation already has different semantics"⟩
      let tables ← reserveOptionalSpaceGroup fromTask tables request.proposedSpaceGroupKey
        request.expectedTaskId request.expectedIntentRevisionId existing.plan
      pure (tables, ⟨existing, false⟩)
  | none => reserveNewOperation hasher fromTask tables request review

/-- Run a transaction after the sweep, which stays committed if it fails. -/
def afterCleanup {α : Type} (tables : CandidateTables) (now : Nat)
    (transaction : CandidateTables → Result (CandidateTables × α)) :
    CandidateTables × Result α :=
  match cleanupExpiredCandidateReviewsAt tables now with
  | .error error => (tables, .error error)
  | .ok (swept, _) =>
      match transaction swept with
      | .error error => (swept, .error error)
      | .ok (after, answer) => (after, .ok answer)

/-- Reserves one complete server-owned Confirmation plan before any Git write. -/
def reserveCandidateConfirmation (runtime : RuntimeDatabase) (tables : CandidateTables)
    (request : ConfirmationRequest) (now : Nat) :
    CandidateTables × Result CandidateConfirmationReservation :=
  match request.validate hasher with
  | .error error => (tables, .error error)
  | .ok () =>
      afterCleanup tables now fun swept =>
        reserveInTransaction text hasher fromTask runtime swept request

end Reservation

/-! ### Finalization -/

section Finalization

variable (hasher : PlanHasher) (fromTask : TaskId → ProposedSpaceGroupKey)

/-- One Git-committed Confirmation to record in the Runtime. -/
structure CandidateConfirmationFinalize where
  candidateId : CandidateId
  operationHash : String
  confirmationId : ConfirmationId
  resultContextId : ContextId
  decisionSource : DecisionSource
  deriving DecidableEq, Repr

structure CandidateConfirmationFinalizeOutcome where
  operation : CandidateConfirmationOperationRow
  review : CandidateReviewRecord
  alreadyConfirmed : Bool

/-- The audit of an operation that was already finalized. -/
def auditConfirmed (tables : CandidateTables) (operation : CandidateConfirmationOperationRow)
    (request : CandidateConfirmationFinalize) :
    Result (CandidateTables × CandidateConfirmationFinalizeOutcome) :=
  match readCandidateReviewRecord tables request.candidateId with
  | none => .error (invariantViolation "confirmed Candidate Review disappeared")
  | some review => do
      Result.require
        (review.status = .confirmed ∧
          review.decision.confirmationId = some request.confirmationId ∧
          review.decision.resultContextId = some request.resultContextId)
        (invariantViolation "committed Candidate Confirmation and Review audit disagree")
      match ← readProposedSpaceGroupMappingForCandidate fromTask tables request.candidateId with
      | some mapping =>
          Result.require (mapping.status = .committed)
            (invariantViolation
              "committed Candidate Confirmation has an uncommitted proposed Space group")
      | none => pure ()
      pure (tables, ⟨operation, review, true⟩)

/-- Confirm a Pending Review at a version, and what it reserved. -/
def commitConfirmation (tables : CandidateTables) (request : CandidateConfirmationFinalize)
    (isParent : CandidateReviewRecord → Bool) : CandidateTables :=
  { tables with
    candidateReview := tables.candidateReview.updateWhere isParent
      (fun review =>
        { review with
          reviewVersion := review.reviewVersion + 1
          decision := .confirmed request.confirmationId request.resultContextId
          decisionSource := some request.decisionSource })
      (fun _ => rfl)
    candidateConfirmationOperation := tables.candidateConfirmationOperation.updateWhere
      (fun operation => operation.candidateId = request.candidateId ∧
        operation.status = .reserved)
      (fun operation => { operation with status := .committed }) (fun _ => rfl)
    proposedSpaceGroup := tables.proposedSpaceGroup.updateWhere
      (fun mapping => mapping.candidateId = request.candidateId ∧ mapping.status = .reserved)
      (fun mapping => { mapping with status := .committed }) (fun _ => rfl) }

/-- Marks one Git-committed Confirmation and its Review terminal inside an open
transaction. -/
def finalizeOneCandidateConfirmation (tables : CandidateTables)
    (request : CandidateConfirmationFinalize) :
    Result (CandidateTables × CandidateConfirmationFinalizeOutcome) := do
  let candidateId := request.candidateId
  match ← readCandidateConfirmationOperation hasher tables candidateId with
  | none => throw (invalid "Candidate Confirmation operation is not reserved")
  | some operation =>
      Result.require
        (operation.operationHash = request.operationHash ∧
          operation.plan.confirmation.confirmationId = request.confirmationId ∧
          operation.plan.resultContextId = request.resultContextId)
        ⟨.conflict, "Committed Candidate Confirmation does not match the reserved operation"⟩
      if operation.status = .committed then
        auditConfirmed fromTask tables operation request
      else
        let isParent (review : CandidateReviewRecord) : Bool :=
          review.candidateId = candidateId ∧ review.status = .pending ∧
            review.reviewVersion = operation.reviewParentVersion
        Result.require (tables.candidateReview.rows.countP isParent = 1)
          (stale "Candidate Review changed before Confirmation finalized")
        let tables := commitConfirmation tables request isParent
        match ← readCandidateConfirmationOperation hasher tables candidateId with
        | none =>
            throw (invariantViolation "committed Candidate Confirmation operation disappeared")
        | some operation =>
            match readCandidateReviewRecord tables candidateId with
            | none => throw (invariantViolation "confirmed Candidate Review disappeared")
            | some review => pure (tables, ⟨operation, review, false⟩)

/-- Names the exact batch member that rolled a Review decision back. -/
def scopedError {α : Type} (result : Result α) (candidateId : CandidateId) (outcome : String) :
    Result α :=
  match result with
  | .ok value => .ok value
  | .error error =>
      .error ⟨error.kind,
        s!"{error.message} (candidate {candidateId}); no Candidate in this batch was {outcome}"⟩

def finalizeEach :
    List CandidateConfirmationFinalize → CandidateTables →
      Result (CandidateTables × List CandidateConfirmationFinalizeOutcome)
  | [], tables => pure (tables, [])
  | request :: rest, tables => do
      let (tables, outcome) ← scopedError
        (finalizeOneCandidateConfirmation hasher fromTask tables request) request.candidateId
        "finalized"
      let (tables, outcomes) ← finalizeEach rest tables
      pure (tables, outcome :: outcomes)

/-- Marks several Git-committed Confirmations terminal inside one transaction. -/
def finalizeCandidateConfirmations (tables : CandidateTables)
    (requests : List CandidateConfirmationFinalize) :
    Result (CandidateTables × List CandidateConfirmationFinalizeOutcome) := do
  Result.require (requests ≠ [])
    (invalid "Candidate Confirmation finalize requires at least one Candidate")
  Result.require ((requests.map (·.candidateId)).Nodup)
    (invalid "Candidate Confirmation finalize batch must not repeat a Candidate")
  finalizeEach hasher fromTask requests tables

end Finalization

/-! ### Discard -/

section Discard

variable (text : IntentText)

/-- CAS-guarded explicit discard command. -/
structure CandidateReviewDiscard where
  locator : ExternalSessionLocator
  expectedTaskId : TaskId
  expectedIntentRevisionId : TaskIntentRevisionId
  candidateId : CandidateId
  expectedReviewVersion : Nat
  reason : String
  decisionSource : DecisionSource
  deriving DecidableEq, Repr

inductive CandidateReviewDiscardStatus
  | discarded
  | alreadyDiscarded
  deriving DecidableEq, Repr

structure CandidateReviewDiscardOutcome where
  record : CandidateReviewRecord
  status : CandidateReviewDiscardStatus
  deriving DecidableEq, Repr

/-- Check the members of a batch in order against the Candidates of those before. -/
def validateDiscards (first : CandidateReviewDiscard) (seen : List CandidateId) :
    List CandidateReviewDiscard → Result Unit
  | [] => pure ()
  | request :: rest => do
      Result.require
        (request.locator = first.locator ∧ request.expectedTaskId = first.expectedTaskId ∧
          request.expectedIntentRevisionId = first.expectedIntentRevisionId)
        (invalid "Candidate discard batch must share one ExternalSession and Task/Intent CAS")
      Result.require (request.candidateId ∉ seen)
        (invalid "Candidate discard batch must not repeat a Candidate")
      Result.require
        (trim request.reason ≠ "" ∧ (trim request.reason).utf8ByteSize ≤ 512 ∧
          request.expectedReviewVersion ≠ 0)
        (invalid ("Candidate discard requires a non-empty bounded reason and positive review " ++
          "version"))
      validateDiscards first (request.candidateId :: seen) rest

def discardOneCandidateReview (tables : CandidateTables) (task : TaskSessionSnapshot)
    (request : CandidateReviewDiscard) (now : Nat) :
    Result (CandidateTables × CandidateReviewDiscardOutcome) := do
  let reason := trim request.reason
  let record ← requireTaskReview tables task request.candidateId
  match record.status with
  | .discarded =>
      Result.require (record.decision.discardReason = some reason)
        ⟨.conflict, "Candidate Review was already discarded with a different reason"⟩
      pure (tables, ⟨record, .alreadyDiscarded⟩)
  | .expired => throw ⟨.conflict, "Expired Candidate Review cannot be discarded"⟩
  | .confirmed => throw ⟨.conflict, "Confirmed Candidate Review cannot be discarded"⟩
  | .pending =>
      Result.require (record.reviewVersion = request.expectedReviewVersion)
        (stale "Candidate Review version is stale")
      Result.require (now < ordinalBound)
        (invalid "Candidate discard timestamp exceeds SQLite range")
      let matched (review : CandidateReviewRecord) : Bool :=
        review.candidateId = request.candidateId ∧
          review.reviewVersion = request.expectedReviewVersion ∧ review.status = .pending
      Result.require (tables.candidateReview.rows.countP matched = 1)
        (stale "Candidate Review changed during discard")
      let tables : CandidateTables :=
        { tables with
          candidateReview := tables.candidateReview.updateWhere matched
            (fun review =>
              { review with
                reviewVersion := review.reviewVersion + 1
                decision := .discarded reason now
                decisionSource := some request.decisionSource })
            (fun _ => rfl) }
      match readCandidateReviewRecord tables request.candidateId with
      | none => throw (invariantViolation "discarded Candidate Review disappeared")
      | some record => pure (tables, ⟨record, .discarded⟩)

def discardEach (task : TaskSessionSnapshot) (now : Nat) :
    List CandidateReviewDiscard → CandidateTables →
      Result (CandidateTables × List CandidateReviewDiscardOutcome)
  | [], tables => pure (tables, [])
  | request :: rest, tables => do
      let (tables, outcome) ← scopedError (discardOneCandidateReview tables task request now)
        request.candidateId "discarded"
      let (tables, outcomes) ← discardEach task now rest tables
      pure (tables, outcome :: outcomes)

/-- Applies several CAS-guarded discards inside one transaction; the clock is
read once for the sweep and once for the discards. -/
def discardCandidateReviews (runtime : RuntimeDatabase) (tables : CandidateTables)
    (requests : List CandidateReviewDiscard) (sweepTime now : Nat) :
    CandidateTables × Result (List CandidateReviewDiscardOutcome) :=
  match requests with
  | [] => (tables, .error (invalid "Candidate discard requires at least one Candidate"))
  | first :: _ =>
      let valid : Result Unit := do
        first.locator.validate
        validateDiscards first [] requests
      match valid with
      | .error error => (tables, .error error)
      | .ok () =>
          afterCleanup tables sweepTime fun swept => do
            let task ← requireActiveTask text runtime first.locator first.expectedTaskId
              first.expectedIntentRevisionId
              "Candidate discard Task/Intent ownership CAS is stale"
            discardEach task now requests swept

end Discard

/-! ### Analysis -/

/-- Replaces the rebuildable analysis of a finalized Candidate.  `validated` is
the answer of the domain check of the analysis against its Episode. -/
def replaceCandidateAnalysis (tables : CandidateTables) (candidateId : CandidateId)
    (analysisStatus : CandidateAnalysisStatus) (validated : Result Unit) :
    Result (CandidateTables × Nat) := do
  let source : Option WorkEpisodeId := do
    let item : CandidateBuildItemRow ← tables.candidateBuildItem.rows.find? fun item =>
      item.state.candidateId = some candidateId ∧ item.state.status.isFinalized
    let build ← tables.candidateBuild.find? item.buildId
    some build.sourceEpisode.episodeId
  match source with
  | none => throw (invalid "Candidate analysis target is not a finalized Builder item")
  | some episodeId =>
      validated
      let prior := tables.candidateAnalysis.find? candidateId
      let generation := (prior.map (·.analysisGeneration)).getD 0 + 1
      Result.require (generation < ordinalBound)
        (invariantViolation "Candidate analysis generation overflow")
      let row : CandidateAnalysisRow := ⟨candidateId, episodeId, generation, analysisStatus⟩
      match tables.candidateAnalysis.insert row with
      | some candidateAnalysis => pure ({ tables with candidateAnalysis }, generation)
      | none =>
          pure
            ({ tables with
                candidateAnalysis := tables.candidateAnalysis.updateWhere
                  (fun other => other.candidateId = candidateId)
                  (fun other => { other with
                    episodeId := episodeId
                    analysisGeneration := generation
                    analysisStatus := analysisStatus })
                  (fun _ => rfl) },
              generation)

end SharedContext
