import SharedContext.TaskRuntime.SpaceGroups

/-!
# Reviews and Git never diverge

Between the Git write of a plan and its finalization any other call may run, and
none of them looks at the pending operation.  As long as no discard or sweep
closes a Review whose plan is in Git, and no reservation comes with another
Intent Head than the group it finds, the Review of every plan in Git stays
Pending or Confirmed and a retry of its operation confirms it.
-/

namespace SharedContext

variable {text : IntentText} {hasher : PlanHasher}
  {fromTask : TaskId → ProposedSpaceGroupKey} {episodes : Episodes}
  {store : ConfirmationStore} {tables after : CandidateTables}

/-! ### Plans in Git -/

/-- What the tables say about the plans in Git. -/
structure PlansKept (git : List CandidateConfirmationPlan) (tables : CandidateTables) : Prop where
  reserved : ∀ plan ∈ git, ∃ operation ∈ tables.candidateConfirmationOperation,
    operation.plan = plan
  reviews : ∀ plan ∈ git, ∀ review ∈ tables.candidateReview,
    review.candidateId = plan.operation.candidateId →
      review.status = .pending ∨ review.status = .confirmed
  groups : ∀ operation ∈ tables.candidateConfirmationOperation, operation.status = .committed →
    ∀ mapping ∈ tables.proposedSpaceGroup, mapping.candidateId = operation.candidateId →
      mapping.status = .committed

/-- The step closes no Pending Review whose plan is in Git, writes no plan to Git
whose Review is closed, adds no group to a committed operation, and reserves a
group that exists with the Intent Head it was reserved with. -/
structure KeepsReviews (hasher : PlanHasher) (store : ConfirmationStore)
    (step : ConfirmationStep) : Prop where
  spares : ∀ plan ∈ store.git, ∀ review ∈ store.candidates.candidateReview,
    review.candidateId = plan.operation.candidateId → review.status = .pending →
      ¬ step.closes hasher review
  writes : ∀ candidateIds, step = .commitToGit candidateIds →
    ∀ plan ∈ reservedPlans store.candidates candidateIds,
      ∀ review ∈ store.candidates.candidateReview,
        review.candidateId = plan.operation.candidateId →
          review.status = .pending ∨ review.status = .confirmed
  groups : ∀ request now key, step = .reserve request now →
    request.proposedSpaceGroupKey = some key →
      ∀ operation ∈ store.candidates.candidateConfirmationOperation,
        operation.candidateId = request.plan.operation.candidateId →
          operation.status = .committed →
            ∃ mapping ∈ store.candidates.proposedSpaceGroup, mapping.proposedSpaceGroupKey = key
  heads : ∀ request now, step = .reserve request now →
    ∀ mapping ∈ store.candidates.proposedSpaceGroup,
      request.proposedSpaceGroupKey = some mapping.proposedSpaceGroupKey →
        mapping.candidateId = request.plan.operation.candidateId →
          mapping.intentRevisionId = request.expectedIntentRevisionId

theorem KeepsReviews.of_none {step : ConfirmationStep}
    (operationsEq : store.candidates.candidateConfirmationOperation.rows = [])
    (groupsEq : store.candidates.proposedSpaceGroup.rows = []) (gitEq : store.git = []) :
    KeepsReviews hasher store step where
  spares plan planMem := by
    rw [gitEq] at planMem
    exact absurd planMem List.not_mem_nil
  writes candidateIds _ plan planMem := by
    obtain ⟨operation, operationMem, _⟩ := List.mem_map.mp planMem
    obtain ⟨candidateId, _, found⟩ := List.mem_filterMap.mp operationMem
    have stored := (Table.find?_eq_some.mp found).1
    rw [Table.mem_def, operationsEq] at stored
    exact absurd stored List.not_mem_nil
  groups _ _ _ _ _ operation operationMem := by
    rw [Table.mem_def, operationsEq] at operationMem
    exact absurd operationMem List.not_mem_nil
  heads _ _ _ mapping mappingMem := by
    rw [Table.mem_def, groupsEq] at mappingMem
    exact absurd mappingMem List.not_mem_nil

namespace PlansKept

variable {git : List CandidateConfirmationPlan} (kept : PlansKept git tables)

include kept

theorem opened (opened : ReviewsOpened tables after) : PlansKept git after where
  reserved := by
    rw [opened.operations]
    exact kept.reserved
  reviews := by
    intro plan planMem review reviewMem sameCandidate
    rcases opened.origin review reviewMem with stored | pending
    · exact kept.reviews plan planMem review stored sameCandidate
    · exact Or.inl pending
  groups := by
    rw [opened.operations, opened.groups]
    exact kept.groups

theorem closed {closes : CandidateReviewRecord → Prop} (closed : ReviewsClosed closes tables after)
    (spares : ∀ plan ∈ git, ∀ review ∈ tables.candidateReview,
      review.candidateId = plan.operation.candidateId → review.status = .pending →
        ¬ closes review) : PlansKept git after where
  reserved := by
    rw [closed.operations]
    exact kept.reserved
  reviews := by
    intro plan planMem review reviewMem sameCandidate
    obtain ⟨old, oldMem, oldCandidate, _, sameRow | ⟨closesOld, wasOpen, _⟩⟩ :=
      closed.origin review reviewMem
    · exact sameRow ▸ kept.reviews plan planMem old oldMem (oldCandidate ▸ sameCandidate)
    · have planCandidate := oldCandidate.symm.trans sameCandidate
      rcases kept.reviews plan planMem old oldMem planCandidate with pending | confirmed
      · exact absurd closesOld (spares plan planMem old oldMem planCandidate pending)
      · rw [confirmed] at wasOpen
        simp at wasOpen
  groups := by
    rw [closed.operations, closed.groups]
    exact kept.groups

theorem grouped {request : ConfirmationRequest} {operation : CandidateConfirmationOperationRow}
    (operationMem : operation ∈ tables.candidateConfirmationOperation)
    {plan : CandidateConfirmationPlan}
    (planCandidate : plan.operation.candidateId = operation.candidateId)
    (reserved : GroupReserved fromTask request plan tables after)
    (uncommitted : ∀ mapping, GroupAdded fromTask request plan tables after mapping →
      operation.status = .reserved) : PlansKept git after := by
  rcases reserved with same | ⟨mapping, added⟩
  · rw [same]
    exact kept
  · have operationsEq : after.candidateConfirmationOperation =
        tables.candidateConfirmationOperation := by rw [added.frame]
    have reviewsEq : after.candidateReview = tables.candidateReview := by rw [added.frame]
    refine ⟨?_, ?_, ?_⟩
    · rw [operationsEq]
      exact kept.reserved
    · rw [reviewsEq]
      exact kept.reviews
    · rw [operationsEq]
      intro owner ownerMem committed other otherMem sameCandidate
      rcases (added.groups other).mp otherMem with stored | rfl
      · exact kept.groups owner ownerMem committed other stored sameCandidate
      · have isOperation := Table.eq_of_key ownerMem operationMem
          (sameCandidate.symm.trans (added.candidate.trans planCandidate))
        rw [isOperation, uncommitted other added] at committed
        cases committed

theorem finalized {request : CandidateConfirmationFinalize}
    (effect : FinalizationEffect request tables after) : PlansKept git after := by
  cases effect with
  | audited unchanged => exact unchanged ▸ kept
  | confirmed operation operationMem sameCandidate confirmation context reserved changed one =>
      have committed := commitConfirmation_committed one
      rw [← changed] at committed
      refine ⟨?_, ?_, ?_⟩
      · intro plan planMem
        obtain ⟨stored, storedMem, planEq⟩ := kept.reserved plan planMem
        exact ⟨_, (committed.operations _).mpr ⟨stored, storedMem, rfl⟩,
          (commitOperation_plan stored).trans planEq⟩
      · intro plan planMem review reviewMem reviewCandidate
        obtain ⟨old, oldMem, isConfirmed | ⟨sameReview, _⟩⟩ := committed.reviews review reviewMem
        · refine Or.inr ?_
          rw [CandidateReviewRecord.status, isConfirmed.decision]
          rfl
        · exact kept.reviews plan planMem review (sameReview ▸ oldMem) reviewCandidate
      · intro owner ownerMem ownerCommitted mapping mappingMem mappingCandidate
        obtain ⟨oldOwner, oldOwnerMem, rfl⟩ := (committed.operations owner).mp ownerMem
        obtain ⟨oldMapping, oldMappingMem, rfl⟩ := (committed.groups mapping).mp mappingMem
        rw [commitGroup_candidateId, commitOperation_candidateId] at mappingCandidate
        by_cases isRequest : oldMapping.candidateId = request.candidateId
        · exact commitGroup_status isRequest
        · rw [commitOperation_of_ne (mappingCandidate ▸ isRequest)] at ownerCommitted
          rw [commitGroup_of_ne isRequest]
          exact kept.groups oldOwner oldOwnerMem ownerCommitted oldMapping oldMappingMem
            mappingCandidate

end PlansKept

theorem StepEffect.plansKept {step : ConfirmationStep}
    (effect : StepEffect hasher fromTask store step after)
    (consistent : ReviewsConsistent hasher fromTask store.candidates)
    (keeps : KeepsReviews hasher store step) (kept : PlansKept store.git store.candidates) :
    PlansKept store.git after := by
  cases effect with
  | opened opened => exact kept.opened opened
  | closed closed => exact kept.closed closed keeps.spares
  | finalized ran =>
      exact finalizeEach_preserves (fun _ _ _ effect before => before.finalized effect) ran kept
  | reserved valid isSwept reviewMem sameCandidate owner effect =>
      have sweptKept := kept.closed isSwept keeps.spares
      cases effect with
      | existing operation operationMem operationCandidate group =>
          have storedMem := operationMem
          rw [isSwept.operations] at storedMem
          refine sweptKept.grouped operationMem (consistent.plan_candidate storedMem) group ?_
          intro mapping added
          cases isStatus : operation.status with
          | reserved => rfl
          | committed =>
              obtain ⟨taken, takenMem, sameKey⟩ := keeps.groups _ _ _ rfl added.requested operation
                storedMem operationCandidate isStatus
              rw [← isSwept.groups] at takenMem
              exact absurd sameKey (added.freshKey taken takenMem)
      | created middle operation added group =>
          have isRow := added.row
          have middleKept : PlansKept store.git middle := by
            refine ⟨?_, ?_, ?_⟩
            · intro plan planMem
              obtain ⟨stored, storedMem, planEq⟩ := sweptKept.reserved plan planMem
              exact ⟨stored, (added.operations stored).mpr (Or.inl storedMem), planEq⟩
            · rw [added.reviews]
              exact sweptKept.reviews
            · rw [added.groups]
              intro other otherMem committed
              rcases (added.operations other).mp otherMem with stored | rfl
              · exact sweptKept.groups other stored committed
              · rw [isRow] at committed
                cases committed
          refine middleKept.grouped ((added.operations operation).mpr (Or.inr rfl)) ?_ group ?_
          · rw [isRow]
          · intro _ _
            rw [isRow]

theorem performConfirmationStep_git (store : ConfirmationStore) (step : ConfirmationStep) :
    (performConfirmationStep text hasher fromTask episodes store step).git = store.git ∨
      ∃ candidateIds, step = .commitToGit candidateIds ∧
        (performConfirmationStep text hasher fromTask episodes store step).git =
          store.git ++ reservedPlans store.candidates candidateIds := by
  cases step with
  | commitToGit candidateIds => exact Or.inr ⟨candidateIds, rfl, rfl⟩
  | build step => exact Or.inl rfl
  | reserve request now => exact Or.inl rfl
  | discard requests sweepTime now => exact Or.inl rfl
  | lineage call =>
      simp only [performConfirmationStep]
      split <;> exact Or.inl rfl
  | replaceAnalysis candidateId analysisStatus validated =>
      simp only [performConfirmationStep]
      split <;> exact Or.inl rfl
  | finalize requests =>
      simp only [performConfirmationStep]
      split <;> exact Or.inl rfl
  | cleanup now =>
      simp only [performConfirmationStep]
      split <;> exact Or.inl rfl

theorem PlansKept.written {git : List CandidateConfirmationPlan} (kept : PlansKept git tables)
    {candidateIds : List CandidateId}
    (writes : ∀ plan ∈ reservedPlans tables candidateIds, ∀ review ∈ tables.candidateReview,
      review.candidateId = plan.operation.candidateId →
        review.status = .pending ∨ review.status = .confirmed) :
    PlansKept (git ++ reservedPlans tables candidateIds) tables where
  reserved := by
    intro plan planMem
    rcases List.mem_append.mp planMem with stored | isNew
    · exact kept.reserved plan stored
    · obtain ⟨operation, operationMem, planEq⟩ := List.mem_map.mp isNew
      obtain ⟨candidateId, _, found⟩ := List.mem_filterMap.mp operationMem
      exact ⟨operation, (Table.find?_eq_some.mp found).1, planEq⟩
  reviews := by
    intro plan planMem
    rcases List.mem_append.mp planMem with stored | isNew
    · exact kept.reviews plan stored
    · exact writes plan isNew
  groups := kept.groups

theorem ConfirmationRun.plansKept
    (run : ConfirmationRun text hasher fromTask episodes (KeepsReviews hasher) store) :
    PlansKept store.git store.candidates := by
  induction run with
  | start =>
      refine ⟨fun _ planMem => absurd planMem List.not_mem_nil,
        fun _ planMem => absurd planMem List.not_mem_nil,
        fun _ operationMem => absurd operationMem (Table.not_mem_empty _)⟩
  | @step store run step keeps ih =>
      have written : (performConfirmationStep text hasher fromTask episodes store step).git =
            store.git ∨ ∃ candidateIds, step = .commitToGit candidateIds ∧
          (performConfirmationStep text hasher fromTask episodes store step).git =
            store.git ++ reservedPlans store.candidates candidateIds :=
        performConfirmationStep_git store step
      rcases written with gitEq | ⟨candidateIds, rfl, gitEq⟩
      · rw [gitEq]
        exact (performConfirmationStep_effect _ step).plansKept run.consistent keeps ih
      · rw [gitEq]
        exact ih.written (keeps.writes candidateIds rfl)

/-! ### Retries -/

/-- A retry of an operation by the Task that owns its Review, under the Intent
Head of that Task, with the group of the Candidate if it names one. -/
structure IsRetry (text : IntentText) (hasher : PlanHasher) (store : ConfirmationStore)
    (operation : CandidateConfirmationOperationRow) (request : ConfirmationRequest) (now : Nat) :
    Prop where
  valid : request.validate hasher = .ok ()
  inRange : now < ordinalBound
  sameCandidate : operation.candidateId = request.plan.operation.candidateId
  sameHash : operation.operationHash = request.plan.operationHash
  owner : ∃ task review, requireActiveTask text store.runtime request.locator
      request.expectedTaskId request.expectedIntentRevisionId
      "Candidate Confirmation Task/Intent ownership CAS is stale" = .ok task ∧
    requireTaskReview store.candidates task operation.candidateId = .ok review
  sameGroup : request.proposedSpaceGroupKey = none ∨
    ∃ mapping ∈ store.candidates.proposedSpaceGroup,
      mapping.candidateId = operation.candidateId ∧
        request.proposedSpaceGroupKey = some mapping.proposedSpaceGroupKey

/-- The finalization of the operation after its Git write. -/
def CandidateConfirmationOperationRow.finalize (operation : CandidateConfirmationOperationRow)
    (decisionSource : DecisionSource) : CandidateConfirmationFinalize :=
  ⟨operation.candidateId, operation.operationHash, operation.plan.confirmation.confirmationId,
    operation.plan.resultContextId, decisionSource⟩

theorem requireActiveTask_taskId {runtime : RuntimeDatabase} {locator : ExternalSessionLocator}
    {taskId : TaskId} {intentRevisionId : TaskIntentRevisionId} {message : String}
    {task : TaskSessionSnapshot}
    (owned : requireActiveTask text runtime locator taskId intentRevisionId message = .ok task) :
    task.taskId = taskId := by
  unfold requireActiveTask at owned
  split at owned
  case h_1 => cases owned
  case h_2 =>
    simp only [Result.bind_eq_ok, Result.exists_unit, Result.require_eq_ok,
      Result.pure_eq_ok] at owned
    obtain ⟨snapshot, _, ⟨sameTask, _⟩, same⟩ := owned
    rw [← same]
    exact sameTask

theorem requireTaskReview_eq_ok {task : TaskSessionSnapshot} {candidateId : CandidateId}
    {review : CandidateReviewRecord} :
    requireTaskReview tables task candidateId = .ok review ↔
      review ∈ tables.candidateReview ∧ review.candidateId = candidateId ∧
        review.sourceEpisode.taskSessionId = task.taskSessionId ∧
          review.sourceEpisode.taskId = task.taskId := by
  unfold requireTaskReview readCandidateReviewRecord
  cases found : tables.candidateReview.find? candidateId with
  | none =>
      have absent := Table.find?_eq_none.mp found
      constructor
      · intro isReview
        cases isReview
      · intro ⟨reviewMem, sameCandidate, _⟩
        exact absurd sameCandidate (absent review reviewMem)
  | some stored =>
      obtain ⟨storedMem, storedCandidate⟩ := Table.find?_eq_some.mp found
      simp only [Result.bind_eq_ok, Result.exists_unit, Result.require_eq_ok, Result.pure_eq_ok]
      constructor
      · rintro ⟨owner, rfl⟩
        exact ⟨storedMem, storedCandidate, owner⟩
      · intro ⟨reviewMem, sameCandidate, owner⟩
        have isStored := Table.eq_of_key storedMem reviewMem
          (storedCandidate.trans sameCandidate.symm)
        exact ⟨isStored ▸ owner, isStored⟩

theorem ReviewsConsistent.read_operation (consistent : ReviewsConsistent hasher fromTask tables)
    {operation : CandidateConfirmationOperationRow}
    (operationMem : operation ∈ tables.candidateConfirmationOperation) :
    readCandidateConfirmationOperation hasher tables operation.candidateId =
      .ok (some operation) := by
  obtain ⟨planValid, agrees⟩ := consistent.plans operation operationMem
  have found : tables.candidateConfirmationOperation.find? operation.candidateId =
      some operation := Table.find?_eq_some.mpr ⟨operationMem, rfl⟩
  simp only [readCandidateConfirmationOperation, found, Result.bind_eq_ok, Result.exists_unit,
    Result.require_eq_ok, Result.pure_eq_ok]
  exact ⟨planValid, agrees, trivial⟩

theorem ReviewsConsistent.reserve_group (consistent : ReviewsConsistent hasher fromTask tables)
    {operation : CandidateConfirmationOperationRow}
    (operationMem : operation ∈ tables.candidateConfirmationOperation)
    {review : CandidateReviewRecord} (reviewMem : review ∈ tables.candidateReview)
    (sameReview : review.candidateId = operation.candidateId)
    {mapping : ProposedSpaceGroupMapping} (mappingMem : mapping ∈ tables.proposedSpaceGroup)
    (sameCandidate : mapping.candidateId = operation.candidateId) :
    reserveProposedSpaceGroup fromTask tables mapping.proposedSpaceGroupKey
      review.sourceEpisode.taskId mapping.intentRevisionId operation.plan = .ok tables := by
  obtain ⟨owner, ownerMem, stored, storedMem, grouped⟩ := consistent.groups mapping mappingMem
  have isOperation := Table.eq_of_key ownerMem operationMem
    (grouped.sameOperation.trans sameCandidate)
  have isReview := Table.eq_of_key storedMem reviewMem
    (grouped.sameReview.trans (sameCandidate.trans sameReview.symm))
  subst isOperation isReview
  have found : tables.proposedSpaceGroup.find? mapping.proposedSpaceGroupKey = some mapping :=
    Table.find?_eq_some.mpr ⟨mappingMem, rfl⟩
  have planCandidate := (consistent.plan_candidate operationMem).symm
  simp only [reserveProposedSpaceGroup, grouped.created, readProposedSpaceGroupMapping, found,
    parseProposedSpaceGroupMapping, Result.bind_eq_ok, Result.exists_unit, Result.require_eq_ok,
    Result.pure_eq_ok]
  refine ⟨grouped.task ▸ grouped.key, grouped.primary.symm, _, ⟨grouped.key, rfl⟩, ?_⟩
  simp only [Result.bind_eq_ok, Result.exists_unit, Result.require_eq_ok, Result.pure_eq_ok]
  exact ⟨⟨grouped.task.symm, trivial, sameCandidate.trans planCandidate, trivial⟩, trivial⟩

theorem cleanup_succeeds (tables : CandidateTables) {now : Nat} (inRange : now < ordinalBound) :
    ∃ swept report, cleanupExpiredCandidateReviewsAt tables now = .ok (swept, report) := by
  simp only [cleanupExpiredCandidateReviewsAt, Result.bind_eq_ok, Result.exists_unit,
    Result.require_eq_ok, Result.pure_eq_ok]
  exact ⟨_, _, inRange, rfl⟩

theorem IsRetry.reserves {operation : CandidateConfirmationOperationRow}
    {request : ConfirmationRequest} {now : Nat}
    (retry : IsRetry text hasher store operation request now)
    (consistent : ReviewsConsistent hasher fromTask store.candidates)
    (operationMem : operation ∈ store.candidates.candidateConfirmationOperation)
    (keeps : KeepsReviews hasher store (.reserve request now)) :
    ∃ swept, reserveCandidateConfirmation text hasher fromTask store.runtime store.candidates
      request now = (swept, .ok ⟨operation, false⟩) ∧
        operation ∈ swept.candidateConfirmationOperation := by
  obtain ⟨swept, report, cleaned⟩ := cleanup_succeeds store.candidates retry.inRange
  have closed := cleanup_closed cleaned
  have sweptConsistent := consistent.closed closed
  have sweptOperation : operation ∈ swept.candidateConfirmationOperation :=
    closed.operations ▸ operationMem
  obtain ⟨task, review, owned, isReview⟩ := retry.owner
  obtain ⟨reviewMem, sameReview, sameSession, sameTask⟩ := requireTaskReview_eq_ok.mp isReview
  obtain ⟨new, newMem, newCandidate⟩ := closed.kept review reviewMem
  have newReview : new.candidateId = operation.candidateId := newCandidate.trans sameReview
  have newEpisode : new.sourceEpisode = review.sourceEpisode := by
    obtain ⟨old, oldMem, oldCandidate, oldEpisode, _⟩ := closed.origin new newMem
    rw [oldEpisode, Table.eq_of_key oldMem reviewMem (oldCandidate.symm.trans newCandidate)]
  have isNew : requireTaskReview swept task request.plan.operation.candidateId = .ok new :=
    requireTaskReview_eq_ok.mpr ⟨newMem, newReview.trans retry.sameCandidate,
      newEpisode ▸ sameSession, newEpisode ▸ sameTask⟩
  have newTask : new.sourceEpisode.taskId = request.expectedTaskId := by
    rw [newEpisode, sameTask, requireActiveTask_taskId owned]
  have group : reserveOptionalSpaceGroup fromTask swept request.proposedSpaceGroupKey
      request.expectedTaskId request.expectedIntentRevisionId operation.plan = .ok swept := by
    rcases retry.sameGroup with noGroup | ⟨mapping, mappingMem, mappingCandidate, sameKey⟩
    · rw [noGroup]
      rfl
    · rw [sameKey, ← newTask, ← keeps.heads request now rfl mapping mappingMem sameKey
        (mappingCandidate.trans retry.sameCandidate)]
      exact sweptConsistent.reserve_group sweptOperation newMem newReview
        (closed.groups ▸ mappingMem) mappingCandidate
  have ran : reserveInTransaction text hasher fromTask store.runtime swept request =
      .ok (swept, ⟨operation, false⟩) := by
    simp only [reserveInTransaction, Result.bind_eq_ok]
    refine ⟨task, owned, new, isNew, some operation, ?_, ?_⟩
    · rw [← retry.sameCandidate]
      exact sweptConsistent.read_operation sweptOperation
    · simp only [Result.bind_eq_ok, Result.exists_unit, Result.require_eq_ok, Result.pure_eq_ok]
      exact ⟨retry.sameHash, swept, group, rfl⟩
  refine ⟨swept, ?_, sweptOperation⟩
  rw [reserveCandidateConfirmation, retry.valid]
  dsimp only
  rw [afterCleanup, cleaned]
  dsimp only
  rw [ran]

/-- The outcome of a finalization says that the operation was confirmed. -/
structure FinalizedAs (operation : CandidateConfirmationOperationRow)
    (outcome : CandidateConfirmationFinalizeOutcome) : Prop where
  sameCandidate : outcome.review.candidateId = operation.candidateId
  decision : outcome.review.decision =
    .confirmed operation.plan.confirmation.confirmationId operation.plan.resultContextId

theorem ReviewsConsistent.audit (consistent : ReviewsConsistent hasher fromTask tables)
    {operation : CandidateConfirmationOperationRow}
    (operationMem : operation ∈ tables.candidateConfirmationOperation)
    (committed : operation.status = .committed) (source : DecisionSource)
    (groups : ∀ mapping ∈ tables.proposedSpaceGroup,
      mapping.candidateId = operation.candidateId → mapping.status = .committed) :
    ∃ outcome, auditConfirmed fromTask tables operation (operation.finalize source) =
      .ok (tables, outcome) ∧ FinalizedAs operation outcome := by
  obtain ⟨review, reviewMem, matched⟩ := consistent.reviewed operation operationMem
  have found : tables.candidateReview.find? operation.candidateId = some review :=
    Table.find?_eq_some.mpr ⟨reviewMem, matched.candidate⟩
  have decision := matched.committed committed
  have confirmed : review.status = .confirmed := by
    rw [CandidateReviewRecord.status, decision]
    rfl
  refine ⟨⟨operation, review, true⟩, ?_, matched.candidate, decision⟩
  simp only [auditConfirmed, readCandidateReviewRecord, CandidateConfirmationOperationRow.finalize,
    found, confirmed, decision, CandidateReviewDecision.confirmationId,
    CandidateReviewDecision.resultContextId, Result.bind_eq_ok, Result.exists_unit,
    Result.require_eq_ok, and_self, true_and]
  unfold readProposedSpaceGroupMappingForCandidate
  cases isGroup : tables.proposedSpaceGroup.rows.find? fun mapping =>
      mapping.candidateId = operation.candidateId with
  | none => exact ⟨none, rfl, rfl⟩
  | some mapping =>
      have mappingMem : mapping ∈ tables.proposedSpaceGroup := List.mem_of_find?_eq_some isGroup
      have sameCandidate : mapping.candidateId = operation.candidateId := by
        simpa using List.find?_some isGroup
      obtain ⟨_, _, _, _, grouped⟩ := consistent.groups mapping mappingMem
      refine ⟨some mapping, ?_, ?_⟩
      · simp only [parseProposedSpaceGroupMapping, Result.bind_eq_ok, Result.exists_unit,
          Result.require_eq_ok, Result.pure_eq_ok]
        exact ⟨grouped.key, trivial⟩
      · simp only [Result.bind_eq_ok, Result.exists_unit, Result.require_eq_ok, Result.pure_eq_ok]
        exact ⟨groups mapping mappingMem sameCandidate, trivial⟩

theorem ReviewsConsistent.confirm (consistent : ReviewsConsistent hasher fromTask tables)
    {operation : CandidateConfirmationOperationRow}
    (operationMem : operation ∈ tables.candidateConfirmationOperation)
    {review : CandidateReviewRecord} (reviewMem : review ∈ tables.candidateReview)
    (sameCandidate : review.candidateId = operation.candidateId)
    (pending : review.status = .pending) (source : DecisionSource) :
    ∃ after outcome, finalizeOneCandidateConfirmation hasher fromTask tables
      (operation.finalize source) = .ok (after, outcome) ∧ FinalizedAs operation outcome := by
  obtain ⟨version, reserved⟩ :=
    (consistent.matches_of_mem operationMem reviewMem sameCandidate).pending pending
  let request := operation.finalize source
  let isParent (other : CandidateReviewRecord) : Bool :=
    other.candidateId = operation.candidateId ∧ other.status = .pending ∧
      other.reviewVersion = operation.reviewParentVersion
  have one : tables.candidateReview.rows.countP isParent = 1 := by
    apply Table.countP_eq_one reviewMem
    · exact decide_eq_true ⟨sameCandidate, pending, version⟩
    · intro other isOther
      exact (of_decide_eq_true isOther).1.trans sameCandidate.symm
  have committed : ConfirmationCommitted request tables
      (commitConfirmation tables request isParent) :=
    commitConfirmation_committed ⟨review, reviewMem, sameCandidate, pending, version⟩
  have committedConsistent : ReviewsConsistent hasher fromTask
      (commitConfirmation tables request isParent) :=
    consistent.committed operationMem rfl rfl rfl committed
  have committedOperation : commitOperation request operation ∈
      (commitConfirmation tables request isParent).candidateConfirmationOperation :=
    (committed.operations _).mpr ⟨operation, operationMem, rfl⟩
  have readCommitted := committedConsistent.read_operation committedOperation
  rw [commitOperation_candidateId] at readCommitted
  obtain ⟨new, newMem, isConfirmed | ⟨_, isOther⟩⟩ := committed.reviewsKept review reviewMem
  · have found : (commitConfirmation tables request isParent).candidateReview.find?
        operation.candidateId = some new :=
      Table.find?_eq_some.mpr ⟨newMem, isConfirmed.candidate⟩
    refine ⟨commitConfirmation tables request isParent,
      ⟨commitOperation request operation, new, false⟩, ?_, isConfirmed.candidate,
      isConfirmed.decision⟩
    simp only [finalizeOneCandidateConfirmation, Result.bind_eq_ok]
    refine ⟨some operation, consistent.read_operation operationMem, ?_⟩
    simp only [Result.bind_eq_ok, Result.exists_unit, Result.require_eq_ok]
    refine ⟨⟨rfl, rfl, rfl⟩, ?_⟩
    rw [if_neg (by rw [reserved]; decide)]
    simp only [Result.bind_eq_ok, Result.exists_unit, Result.require_eq_ok]
    refine ⟨one, _, readCommitted, ?_⟩
    dsimp only [readCandidateReviewRecord]
    rw [show (operation.finalize source).candidateId = operation.candidateId from rfl, found]
    rfl
  · exact absurd sameCandidate isOther

theorem PlansKept.finalizes (consistent : ReviewsConsistent hasher fromTask tables)
    {git : List CandidateConfirmationPlan} (kept : PlansKept git tables)
    {operation : CandidateConfirmationOperationRow}
    (operationMem : operation ∈ tables.candidateConfirmationOperation)
    (inGit : operation.plan ∈ git) (source : DecisionSource) :
    ∃ after outcome, finalizeCandidateConfirmations hasher fromTask tables
      [operation.finalize source] = .ok (after, [outcome]) ∧ FinalizedAs operation outcome := by
  have finalizeOne : ∃ after outcome, finalizeOneCandidateConfirmation hasher fromTask tables
      (operation.finalize source) = .ok (after, outcome) ∧ FinalizedAs operation outcome := by
    obtain ⟨review, reviewMem, matched⟩ := consistent.reviewed operation operationMem
    have planCandidate := consistent.plan_candidate operationMem
    rcases kept.reviews _ inGit review reviewMem (matched.candidate.trans planCandidate.symm) with
      pending | confirmed
    · exact consistent.confirm operationMem reviewMem matched.candidate pending source
    · have committed := matched.confirmed confirmed
      obtain ⟨outcome, audited, finalizedAs⟩ := consistent.audit operationMem committed source
        (kept.groups operation operationMem committed)
      refine ⟨tables, outcome, ?_, finalizedAs⟩
      simp only [finalizeOneCandidateConfirmation, Result.bind_eq_ok]
      refine ⟨some operation, consistent.read_operation operationMem, ?_⟩
      simp only [Result.bind_eq_ok, Result.exists_unit, Result.require_eq_ok]
      exact ⟨⟨rfl, rfl, rfl⟩, by rw [if_pos committed, audited]⟩
  obtain ⟨after, outcome, ran, finalizedAs⟩ := finalizeOne
  refine ⟨after, outcome, ?_, finalizedAs⟩
  simp only [finalizeCandidateConfirmations, finalizeEach, Result.bind_eq_ok, Result.exists_unit,
    Result.require_eq_ok, Result.pure_eq_ok, scopedError_eq_ok]
  exact ⟨List.cons_ne_nil _ _, List.nodup_singleton _, (after, outcome), ran, (after, []), rfl, rfl⟩

/-- The Review of every plan in Git is neither discarded nor expired, and every
allowed retry reserves the operation that exists and confirms it. -/
structure NeverDiverges (text : IntentText) (hasher : PlanHasher)
    (fromTask : TaskId → ProposedSpaceGroupKey)
    (allowed : ConfirmationStore → ConfirmationStep → Prop) (store : ConfirmationStore) : Prop where
  reviews : ∀ plan ∈ store.git, ∀ review ∈ store.candidates.candidateReview,
    review.candidateId = plan.operation.candidateId →
      review.status ≠ .discarded ∧ review.status ≠ .expired
  retries : ∀ operation ∈ store.candidates.candidateConfirmationOperation,
    operation.plan ∈ store.git → ∀ request now source,
      IsRetry text hasher store operation request now → allowed store (.reserve request now) →
        ∃ reserved after outcome,
          reserveCandidateConfirmation text hasher fromTask store.runtime store.candidates
            request now = (reserved, .ok ⟨operation, false⟩) ∧
          finalizeCandidateConfirmations hasher fromTask reserved [operation.finalize source] =
            .ok (after, [outcome]) ∧
          FinalizedAs operation outcome

/-- In every run whose steps keep Reviews, Reviews and Git never diverge. -/
theorem confirmations_never_diverge
    (run : ConfirmationRun text hasher fromTask episodes (KeepsReviews hasher) store) :
    NeverDiverges text hasher fromTask (KeepsReviews hasher) store where
  reviews := by
    intro plan planMem review reviewMem sameCandidate
    rcases run.plansKept.reviews plan planMem review reviewMem sameCandidate with
      pending | confirmed
    · rw [pending]
      exact ⟨by decide, by decide⟩
    · rw [confirmed]
      exact ⟨by decide, by decide⟩
  retries := by
    intro operation operationMem inGit request now source retry keeps
    obtain ⟨reserved, reserves, reservedMem⟩ :=
      retry.reserves run.consistent operationMem keeps
    -- The store after the retry is reached by a run too.
    have next := run.step (.reserve request now) keeps
    have reservedEq : (performConfirmationStep text hasher fromTask episodes store
        (.reserve request now)).candidates = reserved := by
      simp only [performConfirmationStep, reserves]
    obtain ⟨after, outcome, finalizes, finalizedAs⟩ :=
      (reservedEq ▸ next.plansKept).finalizes (reservedEq ▸ next.consistent) reservedMem inGit
        source
    exact ⟨reserved, after, outcome, reserves, finalizes, finalizedAs⟩

section Sample

/-- A plan is written to Git and its Candidate confirmed. -/
theorem confirmations_never_diverge_sample :
    gitStore.git.map (·.operation.candidateId) = [⟨7⟩] ∧
      NeverDiverges sampleIntentText samplePlanHasher sampleGroupKey
        (KeepsReviews samplePlanHasher) gitStore := by
  refine ⟨by decide, ?_⟩
  have run : SampleRun (KeepsReviews samplePlanHasher) gitStore := by
    unfold gitStore
    refine .step (reservedStore_run ?_) (.commitToGit [⟨7⟩]) ?_
    · intro store step operationsEq groupsEq gitEq
      exact .of_none operationsEq groupsEq gitEq
    · refine ⟨fun _ _ _ _ _ _ => id, ?_, fun _ _ _ isReserve => ?_, fun _ _ isReserve => ?_⟩
      case refine_2 => cases isReserve
      case refine_3 => cases isReserve
      intro candidateIds sameStep plan planMem review reviewMem _
      have pending : ∀ review ∈ reservedStore.candidates.candidateReview.rows,
          review.status = .pending := by decide
      exact Or.inl (pending review reviewMem)
  exact confirmations_never_diverge run

def advancingStep : ConfirmationStep :=
  .lineage (.continueWorkingIntent (sampleIds 60) sampleLocator ⟨1⟩ (sampleWorkingIntent "bar"))

/-- The Intent Head of the Task moves on between the Git write and its retry. -/
def advancedStore : ConfirmationStore :=
  performSample gitStore advancingStep

def sampleRetry : ConfirmationRequest :=
  { sampleRequest with expectedIntentRevisionId := ⟨60⟩ }

theorem advancedStore_refuses :
    ¬ NeverDiverges sampleIntentText samplePlanHasher sampleGroupKey (fun _ _ => True)
      advancedStore := by
  intro neverDiverges
  have candidatesEq : advancedStore.candidates = reservedStore.candidates := by
    simp only [advancedStore, advancingStep, performSample, performConfirmationStep]
    split <;> rfl
  have gitEq : advancedStore.git =
      reservedStore.git ++ reservedPlans reservedStore.candidates [⟨7⟩] := by
    simp only [advancedStore, advancingStep, performSample, performConfirmationStep]
    split <;> rfl
  have isReserved : (reservedStore.candidates.candidateConfirmationOperation.find? ⟨7⟩).any
      (fun operation => operation.operationHash = samplePlan.operationHash) = true := by
    decide
  obtain ⟨operation, found, sameHash⟩ := (Option.any_eq_true _ _).mp isReserved
  obtain ⟨operationMem, candidateEq⟩ := Table.find?_eq_some.mp found
  have inGit : operation.plan ∈ advancedStore.git := by
    rw [gitEq]
    exact List.mem_append_right _
      (List.mem_map.mpr ⟨operation, List.mem_filterMap.mpr ⟨_, List.mem_singleton_self _, found⟩, rfl⟩)
  let owned : Result CandidateReviewRecord := do
    let task ← requireActiveTask sampleIntentText advancedStore.runtime sampleLocator ⟨3⟩ ⟨60⟩
      "Candidate Confirmation Task/Intent ownership CAS is stale"
    requireTaskReview advancedStore.candidates task ⟨7⟩
  have owner : ∃ task review, requireActiveTask sampleIntentText advancedStore.runtime
      sampleLocator ⟨3⟩ ⟨60⟩ "Candidate Confirmation Task/Intent ownership CAS is stale" =
        .ok task ∧
      requireTaskReview advancedStore.candidates task ⟨7⟩ = .ok review := by
    have isOwner : owned.isOk = true := by decide
    cases isOwned : owned with
    | error error =>
        rw [isOwned] at isOwner
        cases isOwner
    | ok review =>
        obtain ⟨task, isTask, isReview⟩ := Result.bind_eq_ok.mp isOwned
        exact ⟨task, review, isTask, isReview⟩
  have isRetry : IsRetry sampleIntentText samplePlanHasher advancedStore operation sampleRetry
      1200 := by
    refine ⟨by decide, by decide, candidateEq, of_decide_eq_true sameHash, candidateEq ▸ owner, Or.inr ?_⟩
    rw [candidatesEq]
    have group : ∃ mapping ∈ reservedStore.candidates.proposedSpaceGroup.rows,
        mapping.candidateId = ⟨7⟩ ∧ some (sampleGroupKey ⟨3⟩) = some mapping.proposedSpaceGroupKey := by
      decide
    exact candidateEq ▸ group
  obtain ⟨reserved, _, _, reserves, _⟩ := neverDiverges.retries operation
    (candidatesEq ▸ operationMem) inGit sampleRetry 1200 .human isRetry trivial
  have refused : (reserveCandidateConfirmation sampleIntentText samplePlanHasher sampleGroupKey
      advancedStore.runtime advancedStore.candidates sampleRetry 1200).2.isOk = false := by
    decide
  rw [reserves] at refused
  cases refused

/-- Discarding a Candidate whose plan is in Git closes its Review; and once the
Intent Head moves on, the retry of an operation with a group is refused. -/
theorem confirmations_diverge :
    (∃ store, SampleRun (fun _ _ => True) store ∧ ∃ plan ∈ store.git,
      ∃ review ∈ store.candidates.candidateReview.rows,
        review.candidateId = plan.operation.candidateId ∧ review.status = .discarded) ∧
    ∃ store, SampleRun (fun _ _ => True) store ∧
      ¬ NeverDiverges sampleIntentText samplePlanHasher sampleGroupKey (fun _ _ => True) store := by
  have run : SampleRun (fun _ _ => True) gitStore := by
    unfold gitStore
    exact .step (reservedStore_run fun _ _ _ _ _ => trivial) (.commitToGit [⟨7⟩]) trivial
  have advanced : SampleRun (fun _ _ => True) advancedStore := by
    unfold advancedStore
    exact .step run advancingStep trivial
  exact ⟨⟨_, .step run (.discard [sampleDiscard] 1200 1200) trivial, by decide⟩,
    advancedStore, advanced, advancedStore_refuses⟩

end Sample

end SharedContext
