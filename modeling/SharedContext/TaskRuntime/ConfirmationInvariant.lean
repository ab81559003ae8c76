import SharedContext.TaskRuntime.ReviewChanges

/-!
# The invariant of Reviews, reservations and groups

Every reserved operation has its Review: a Pending Review is still at the
version of its operation, and an operation is committed exactly with its
Review.  Every group belongs to the operation whose plan creates its Space.
-/

namespace SharedContext

variable {text : IntentText} {hasher : PlanHasher}
  {fromTask : TaskId → ProposedSpaceGroupKey} {tables after : CandidateTables}

/-- The Review agrees with the operation reserved for its Candidate. -/
structure OperationMatches (operation : CandidateConfirmationOperationRow)
    (review : CandidateReviewRecord) : Prop where
  candidate : review.candidateId = operation.candidateId
  pending : review.status = .pending →
    review.reviewVersion = operation.reviewParentVersion ∧ operation.status = .reserved
  confirmed : review.status = .confirmed → operation.status = .committed
  committed : operation.status = .committed → review.decision =
    .confirmed operation.plan.confirmation.confirmationId operation.plan.resultContextId

/-- The group belongs to the operation, and to the Task of the Review. -/
structure GroupMatches (fromTask : TaskId → ProposedSpaceGroupKey)
    (mapping : ProposedSpaceGroupMapping) (operation : CandidateConfirmationOperationRow)
    (review : CandidateReviewRecord) : Prop where
  key : mapping.proposedSpaceGroupKey = fromTask mapping.taskId
  sameOperation : operation.candidateId = mapping.candidateId
  sameReview : review.candidateId = mapping.candidateId
  task : review.sourceEpisode.taskId = mapping.taskId
  created : operation.plan.confirmation.createdSpaceId = some mapping.spaceId
  primary : operation.plan.confirmation.primarySpaceId = mapping.spaceId
  committed : mapping.status = .committed → operation.status = .committed

structure ReviewsConsistent (hasher : PlanHasher) (fromTask : TaskId → ProposedSpaceGroupKey)
    (tables : CandidateTables) : Prop where
  plans : ∀ operation ∈ tables.candidateConfirmationOperation,
    operation.plan.validate hasher = .ok () ∧ operation.metadataAgrees hasher
  reviewed : ∀ operation ∈ tables.candidateConfirmationOperation,
    ∃ review ∈ tables.candidateReview, OperationMatches operation review
  groups : ∀ mapping ∈ tables.proposedSpaceGroup,
    ∃ operation ∈ tables.candidateConfirmationOperation, ∃ review ∈ tables.candidateReview,
      GroupMatches fromTask mapping operation review
  oneGroup : ∀ first ∈ tables.proposedSpaceGroup, ∀ second ∈ tables.proposedSpaceGroup,
    first.candidateId = second.candidateId → first = second

theorem ReviewsConsistent.empty : ReviewsConsistent hasher fromTask .empty := by
  refine ⟨?_, ?_, ?_, ?_⟩
  all_goals exact fun _ rowMem => absurd rowMem (Table.not_mem_empty _)

namespace ReviewsConsistent

variable (consistent : ReviewsConsistent hasher fromTask tables)

include consistent

theorem matches_of_mem {operation : CandidateConfirmationOperationRow}
    (operationMem : operation ∈ tables.candidateConfirmationOperation)
    {review : CandidateReviewRecord} (reviewMem : review ∈ tables.candidateReview)
    (sameCandidate : review.candidateId = operation.candidateId) :
    OperationMatches operation review := by
  obtain ⟨stored, storedMem, matched⟩ := consistent.reviewed operation operationMem
  have sameReview := Table.eq_of_key reviewMem storedMem
    (sameCandidate.trans matched.candidate.symm)
  exact sameReview ▸ matched

theorem plan_candidate {operation : CandidateConfirmationOperationRow}
    (operationMem : operation ∈ tables.candidateConfirmationOperation) :
    operation.plan.operation.candidateId = operation.candidateId :=
  (consistent.plans operation operationMem).2.2.2.1

theorem closed {closes : CandidateReviewRecord → Prop}
    (closed : ReviewsClosed closes tables after) : ReviewsConsistent hasher fromTask after := by
  have matched : ∀ operation ∈ tables.candidateConfirmationOperation,
      ∀ new ∈ after.candidateReview, new.candidateId = operation.candidateId →
        OperationMatches operation new := by
    intro operation operationMem new newMem sameCandidate
    obtain ⟨old, oldMem, candidateEq, _, sameRow | ⟨_, wasOpen, isClosed⟩⟩ :=
      closed.origin new newMem
    · exact consistent.matches_of_mem operationMem (sameRow ▸ oldMem) sameCandidate
    · have oldMatches := consistent.matches_of_mem operationMem oldMem
        (candidateEq.symm.trans sameCandidate)
      refine ⟨sameCandidate, ?_, ?_, ?_⟩
      · intro pending
        rw [pending] at isClosed
        simp at isClosed
      · intro confirmed
        rw [confirmed] at isClosed
        simp at isClosed
      · intro committed
        rw [CandidateReviewRecord.status, oldMatches.committed committed] at wasOpen
        simp [CandidateReviewDecision.status] at wasOpen
  refine ⟨?_, ?_, ?_, ?_⟩
  · rw [closed.operations]
    exact consistent.plans
  · rw [closed.operations]
    intro operation operationMem
    obtain ⟨old, oldMem, oldMatches⟩ := consistent.reviewed operation operationMem
    obtain ⟨new, newMem, sameCandidate⟩ := closed.kept old oldMem
    exact ⟨new, newMem, matched operation operationMem new newMem
      (sameCandidate.trans oldMatches.candidate)⟩
  · rw [closed.operations, closed.groups]
    intro mapping mappingMem
    obtain ⟨operation, operationMem, review, reviewMem, grouped⟩ :=
      consistent.groups mapping mappingMem
    obtain ⟨new, newMem, sameCandidate⟩ := closed.kept review reviewMem
    obtain ⟨old, oldMem, oldCandidate, oldEpisode, _⟩ := closed.origin new newMem
    have sameOld := Table.eq_of_key oldMem reviewMem (oldCandidate.symm.trans sameCandidate)
    subst sameOld
    exact ⟨operation, operationMem, new, newMem,
      { grouped with
        sameReview := sameCandidate.trans grouped.sameReview
        task := oldEpisode ▸ grouped.task }⟩
  · rw [closed.groups]
    exact consistent.oneGroup

theorem opened (opened : ReviewsOpened tables after) :
    ReviewsConsistent hasher fromTask after := by
  refine ⟨?_, ?_, ?_, ?_⟩
  · rw [opened.operations]
    exact consistent.plans
  · rw [opened.operations]
    intro operation operationMem
    obtain ⟨review, reviewMem, matched⟩ := consistent.reviewed operation operationMem
    exact ⟨review, opened.kept review reviewMem, matched⟩
  · rw [opened.operations, opened.groups]
    intro mapping mappingMem
    obtain ⟨operation, operationMem, review, reviewMem, grouped⟩ :=
      consistent.groups mapping mappingMem
    exact ⟨operation, operationMem, review, opened.kept review reviewMem, grouped⟩
  · rw [opened.groups]
    exact consistent.oneGroup

theorem grouped {request : ConfirmationRequest} {operation : CandidateConfirmationOperationRow}
    (operationMem : operation ∈ tables.candidateConfirmationOperation)
    {review : CandidateReviewRecord} (reviewMem : review ∈ tables.candidateReview)
    (sameCandidate : review.candidateId = operation.candidateId)
    (ownerTask : review.sourceEpisode.taskId = request.expectedTaskId)
    (reserved : GroupReserved fromTask request operation.plan tables after) :
    ReviewsConsistent hasher fromTask after := by
  rcases reserved with same | ⟨mapping, added⟩
  · rw [same]
    exact consistent
  · have operationsEq : after.candidateConfirmationOperation =
        tables.candidateConfirmationOperation := by rw [added.frame]
    have reviewsEq : after.candidateReview = tables.candidateReview := by rw [added.frame]
    have mappingCandidate : mapping.candidateId = operation.candidateId :=
      added.candidate.trans (consistent.plan_candidate operationMem)
    refine ⟨?_, ?_, ?_, ?_⟩
    · rw [operationsEq]
      exact consistent.plans
    · rw [operationsEq, reviewsEq]
      exact consistent.reviewed
    · rw [operationsEq, reviewsEq]
      intro other otherMem
      rcases (added.groups other).mp otherMem with stored | rfl
      · exact consistent.groups other stored
      · refine ⟨operation, operationMem, review, reviewMem, added.key, mappingCandidate.symm,
          sameCandidate.trans mappingCandidate.symm, ownerTask.trans added.task.symm,
          added.created, added.primary, ?_⟩
        intro committed
        rw [added.status] at committed
        cases committed
    · intro first firstMem second secondMem sameMapping
      rcases (added.groups first).mp firstMem with firstOld | rfl
      · rcases (added.groups second).mp secondMem with secondOld | rfl
        · exact consistent.oneGroup first firstOld second secondOld sameMapping
        · exact absurd sameMapping (added.freshCandidate first firstOld)
      · rcases (added.groups second).mp secondMem with secondOld | rfl
        · exact absurd sameMapping.symm (added.freshCandidate second secondOld)
        · rfl

theorem reserved {plan : CandidateConfirmationPlan} (valid : plan.validate hasher = .ok ())
    {review : CandidateReviewRecord} (reviewMem : review ∈ tables.candidateReview)
    (sameCandidate : review.candidateId = plan.operation.candidateId)
    {operation : CandidateConfirmationOperationRow}
    (added : OperationReserved hasher plan review tables after operation) :
    ReviewsConsistent hasher fromTask after := by
  have rowEq := added.row
  refine ⟨?_, ?_, ?_, ?_⟩
  · intro other otherMem
    rcases (added.operations other).mp otherMem with stored | isNew
    · exact consistent.plans other stored
    · rw [isNew, rowEq]
      exact ⟨valid, rfl, rfl, rfl, rfl⟩
  · rw [added.reviews]
    intro other otherMem
    rcases (added.operations other).mp otherMem with stored | isNew
    · exact consistent.reviewed other stored
    · rw [isNew, rowEq]
      refine ⟨review, reviewMem, sameCandidate, fun _ => ⟨added.version, rfl⟩, ?_, ?_⟩
      · intro confirmed
        rw [added.pending] at confirmed
        cases confirmed
      · intro committed
        cases committed
  · rw [added.reviews, added.groups]
    intro mapping mappingMem
    obtain ⟨other, otherMem, grouped⟩ := consistent.groups mapping mappingMem
    exact ⟨other, (added.operations other).mpr (Or.inl otherMem), grouped⟩
  · rw [added.groups]
    exact consistent.oneGroup

theorem reservation {request : ConfirmationRequest} {review : CandidateReviewRecord}
    (valid : request.plan.validate hasher = .ok ())
    (reviewMem : review ∈ tables.candidateReview)
    (sameCandidate : review.candidateId = request.plan.operation.candidateId)
    (ownerTask : review.sourceEpisode.taskId = request.expectedTaskId)
    (effect : ReservationEffect hasher fromTask request review tables after) :
    ReviewsConsistent hasher fromTask after := by
  cases effect with
  | existing operation operationMem operationCandidate group =>
      exact consistent.grouped operationMem reviewMem
        (sameCandidate.trans operationCandidate.symm) ownerTask group
  | created middle operation added group =>
      have rowEq := added.row
      have middleConsistent := consistent.reserved valid reviewMem sameCandidate added
      have operationMem := (added.operations operation).mpr (Or.inr rfl)
      refine middleConsistent.grouped operationMem (added.reviews ▸ reviewMem) ?_ ownerTask ?_
      · rw [rowEq]
        exact sameCandidate
      · rw [rowEq]
        exact group

end ReviewsConsistent

/-! ### Finalization -/

section Committing

variable {request : CandidateConfirmationFinalize}

/-- The operation after the commit of a confirmation. -/
def commitOperation (request : CandidateConfirmationFinalize)
    (operation : CandidateConfirmationOperationRow) : CandidateConfirmationOperationRow :=
  if operation.candidateId = request.candidateId ∧ operation.status = .reserved then
    { operation with status := .committed }
  else
    operation

/-- The group after the commit of a confirmation. -/
def commitGroup (request : CandidateConfirmationFinalize)
    (mapping : ProposedSpaceGroupMapping) : ProposedSpaceGroupMapping :=
  if mapping.candidateId = request.candidateId ∧ mapping.status = .reserved then
    { mapping with status := .committed }
  else
    mapping

@[simp]
theorem commitOperation_candidateId (operation : CandidateConfirmationOperationRow) :
    (commitOperation request operation).candidateId = operation.candidateId := by
  unfold commitOperation
  split <;> rfl

@[simp]
theorem commitOperation_plan (operation : CandidateConfirmationOperationRow) :
    (commitOperation request operation).plan = operation.plan := by
  unfold commitOperation
  split <;> rfl

theorem commitOperation_metadataAgrees {operation : CandidateConfirmationOperationRow}
    (agrees : operation.metadataAgrees hasher) :
    (commitOperation request operation).metadataAgrees hasher := by
  unfold commitOperation
  split <;> exact agrees

theorem commitOperation_of_ne {operation : CandidateConfirmationOperationRow}
    (isOther : operation.candidateId ≠ request.candidateId) :
    commitOperation request operation = operation :=
  if_neg fun matched => isOther matched.1

theorem commitOperation_status {operation : CandidateConfirmationOperationRow}
    (sameCandidate : operation.candidateId = request.candidateId) :
    (commitOperation request operation).status = .committed := by
  unfold commitOperation
  split
  case isTrue => rfl
  case isFalse notReserved =>
    cases isStatus : operation.status with
    | reserved => exact absurd ⟨sameCandidate, isStatus⟩ notReserved
    | committed => rfl

@[simp]
theorem commitGroup_candidateId (mapping : ProposedSpaceGroupMapping) :
    (commitGroup request mapping).candidateId = mapping.candidateId := by
  unfold commitGroup
  split <;> rfl

theorem commitGroup_status {mapping : ProposedSpaceGroupMapping}
    (sameCandidate : mapping.candidateId = request.candidateId) :
    (commitGroup request mapping).status = .committed := by
  unfold commitGroup
  split
  case isTrue => rfl
  case isFalse notReserved =>
    cases isStatus : mapping.status with
    | reserved => exact absurd ⟨sameCandidate, isStatus⟩ notReserved
    | committed => rfl

theorem commitGroup_of_ne {mapping : ProposedSpaceGroupMapping}
    (isOther : mapping.candidateId ≠ request.candidateId) : commitGroup request mapping = mapping :=
  if_neg fun matched => isOther matched.1

structure ReviewConfirmed (request : CandidateConfirmationFinalize)
    (old new : CandidateReviewRecord) : Prop where
  candidate : new.candidateId = request.candidateId
  sameCandidate : new.candidateId = old.candidateId
  sameEpisode : new.sourceEpisode = old.sourceEpisode
  pending : old.status = .pending
  decision : new.decision = .confirmed request.confirmationId request.resultContextId

/-- What the commit of a confirmation does to the three tables. -/
structure ConfirmationCommitted (request : CandidateConfirmationFinalize)
    (before after : CandidateTables) : Prop where
  reviews : ∀ new ∈ after.candidateReview, ∃ old ∈ before.candidateReview,
    ReviewConfirmed request old new ∨ new = old ∧ old.candidateId ≠ request.candidateId
  reviewsKept : ∀ old ∈ before.candidateReview, ∃ new ∈ after.candidateReview,
    ReviewConfirmed request old new ∨ new = old ∧ old.candidateId ≠ request.candidateId
  operations : ∀ new, new ∈ after.candidateConfirmationOperation ↔
    ∃ old ∈ before.candidateConfirmationOperation, commitOperation request old = new
  groups : ∀ new, new ∈ after.proposedSpaceGroup ↔
    ∃ old ∈ before.proposedSpaceGroup, commitGroup request old = new

theorem commitConfirmation_committed {version : Nat}
    (one : ∃ review ∈ tables.candidateReview, review.candidateId = request.candidateId ∧
      review.status = .pending ∧ review.reviewVersion = version) :
    ConfirmationCommitted request tables (commitConfirmation tables request fun review =>
      review.candidateId = request.candidateId ∧ review.status = .pending ∧
        review.reviewVersion = version) := by
  obtain ⟨parent, parentMem, parentMatches⟩ := one
  have cases_of_mem : ∀ old ∈ tables.candidateReview,
      (old.candidateId = request.candidateId ∧ old.status = .pending ∧
        old.reviewVersion = version) ∨ old.candidateId ≠ request.candidateId := by
    intro old oldMem
    by_cases sameCandidate : old.candidateId = request.candidateId
    · have isParent := Table.eq_of_key oldMem parentMem
        (sameCandidate.trans parentMatches.1.symm)
      exact Or.inl (isParent ▸ parentMatches)
    · exact Or.inr sameCandidate
  refine ⟨?_, ?_, ?_, ?_⟩
  · intro new newMem
    obtain ⟨old, oldMem, newEq⟩ := List.mem_map.mp newMem
    refine ⟨old, oldMem, ?_⟩
    rcases cases_of_mem old oldMem with matched | isOther
    · rw [if_pos (decide_eq_true matched)] at newEq
      subst newEq
      exact Or.inl ⟨matched.1, rfl, rfl, matched.2.1, rfl⟩
    · rw [if_neg fun matched => isOther (of_decide_eq_true matched).1] at newEq
      exact Or.inr ⟨newEq.symm, isOther⟩
  · intro old oldMem
    refine ⟨_, List.mem_map.mpr ⟨old, oldMem, rfl⟩, ?_⟩
    rcases cases_of_mem old oldMem with matched | isOther
    · rw [if_pos (decide_eq_true matched)]
      exact Or.inl ⟨matched.1, rfl, rfl, matched.2.1, rfl⟩
    · rw [if_neg fun matched => isOther (of_decide_eq_true matched).1]
      exact Or.inr ⟨rfl, isOther⟩
  · intro new
    constructor
    · intro newMem
      obtain ⟨old, oldMem, newEq⟩ := List.mem_map.mp newMem
      refine ⟨old, oldMem, ?_⟩
      rw [← newEq]
      simp only [commitOperation, decide_eq_true_eq]
    · intro ⟨old, oldMem, newEq⟩
      refine List.mem_map.mpr ⟨old, oldMem, ?_⟩
      rw [← newEq]
      simp only [commitOperation, decide_eq_true_eq]
  · intro new
    constructor
    · intro newMem
      obtain ⟨old, oldMem, newEq⟩ := List.mem_map.mp newMem
      refine ⟨old, oldMem, ?_⟩
      rw [← newEq]
      simp only [commitGroup, decide_eq_true_eq]
    · intro ⟨old, oldMem, newEq⟩
      refine List.mem_map.mpr ⟨old, oldMem, ?_⟩
      rw [← newEq]
      simp only [commitGroup, decide_eq_true_eq]

theorem ReviewsConsistent.committed (consistent : ReviewsConsistent hasher fromTask tables)
    {operation : CandidateConfirmationOperationRow}
    (operationMem : operation ∈ tables.candidateConfirmationOperation)
    (sameCandidate : operation.candidateId = request.candidateId)
    (confirmation : operation.plan.confirmation.confirmationId = request.confirmationId)
    (context : operation.plan.resultContextId = request.resultContextId)
    (committed : ConfirmationCommitted request tables after) :
    ReviewsConsistent hasher fromTask after := by
  refine ⟨?_, ?_, ?_, ?_⟩
  · intro new newMem
    obtain ⟨old, oldMem, rfl⟩ := (committed.operations new).mp newMem
    obtain ⟨valid, agrees⟩ := consistent.plans old oldMem
    exact ⟨by rwa [commitOperation_plan], commitOperation_metadataAgrees agrees⟩
  · intro new newMem
    obtain ⟨old, oldMem, rfl⟩ := (committed.operations new).mp newMem
    obtain ⟨review, reviewMem, matched⟩ := consistent.reviewed old oldMem
    obtain ⟨newReview, newReviewMem, confirmed | ⟨sameReview, isOther⟩⟩ :=
      committed.reviewsKept review reviewMem
    · -- This is the operation that was finalized.
      have oldCandidate : old.candidateId = request.candidateId :=
        matched.candidate.symm.trans (confirmed.sameCandidate.symm.trans confirmed.candidate)
      have isOperation := Table.eq_of_key oldMem operationMem
        (oldCandidate.trans sameCandidate.symm)
      subst isOperation
      refine ⟨newReview, newReviewMem, ?_, ?_, ?_, ?_⟩
      · rw [commitOperation_candidateId]
        exact confirmed.candidate.trans oldCandidate.symm
      · intro pending
        rw [CandidateReviewRecord.status, confirmed.decision] at pending
        cases pending
      · exact fun _ => commitOperation_status oldCandidate
      · intro _
        rw [confirmed.decision, commitOperation_plan, confirmation, context]
    · rw [commitOperation_of_ne (matched.candidate ▸ isOther)]
      exact ⟨newReview, newReviewMem, sameReview ▸ matched⟩
  · intro new newMem
    obtain ⟨old, oldMem, rfl⟩ := (committed.groups new).mp newMem
    obtain ⟨owner, ownerMem, review, reviewMem, grouped⟩ := consistent.groups old oldMem
    obtain ⟨newReview, newReviewMem, changed⟩ := committed.reviewsKept review reviewMem
    refine ⟨_, (committed.operations _).mpr ⟨owner, ownerMem, rfl⟩, newReview, newReviewMem, ?_⟩
    have newCandidate : newReview.candidateId = review.candidateId := by
      rcases changed with confirmed | ⟨sameReview, _⟩
      · exact confirmed.sameCandidate
      · rw [sameReview]
    have newEpisode : newReview.sourceEpisode = review.sourceEpisode := by
      rcases changed with confirmed | ⟨sameReview, _⟩
      · exact confirmed.sameEpisode
      · rw [sameReview]
    by_cases isRequest : old.candidateId = request.candidateId
    · have ownerStatus := commitOperation_status (grouped.sameOperation.trans isRequest)
      unfold commitGroup
      split
      all_goals
        exact
          { key := grouped.key
            sameOperation := (commitOperation_candidateId owner).trans grouped.sameOperation
            sameReview := newCandidate.trans grouped.sameReview
            task := newEpisode ▸ grouped.task
            created := by rw [commitOperation_plan, grouped.created]
            primary := by rw [commitOperation_plan, grouped.primary]
            committed := fun _ => ownerStatus }
    · rw [commitGroup_of_ne isRequest,
        commitOperation_of_ne fun same => isRequest (grouped.sameOperation.symm.trans same)]
      exact { grouped with
        sameReview := newCandidate.trans grouped.sameReview
        task := newEpisode ▸ grouped.task }
  · intro first firstMem second secondMem sameMapping
    obtain ⟨firstOld, firstOldMem, rfl⟩ := (committed.groups first).mp firstMem
    obtain ⟨secondOld, secondOldMem, rfl⟩ := (committed.groups second).mp secondMem
    rw [commitGroup_candidateId, commitGroup_candidateId] at sameMapping
    rw [consistent.oneGroup firstOld firstOldMem secondOld secondOldMem sameMapping]

theorem ReviewsConsistent.finalized (consistent : ReviewsConsistent hasher fromTask tables)
    (effect : FinalizationEffect request tables after) :
    ReviewsConsistent hasher fromTask after := by
  cases effect with
  | audited unchanged => exact unchanged ▸ consistent
  | confirmed operation operationMem sameCandidate confirmation context reserved changed one =>
      rw [changed]
      exact consistent.committed operationMem sameCandidate confirmation context
        (commitConfirmation_committed one)

end Committing

end SharedContext
