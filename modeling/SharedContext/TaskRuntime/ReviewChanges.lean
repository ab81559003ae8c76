import SharedContext.TaskRuntime.BuildRuns
import SharedContext.TaskRuntime.CandidateReviews

/-!
# What the operations do to Reviews, reservations and groups

Each operation is described once by what it may change: a sweep and a discard
close open Reviews, a Build step opens new ones, a reservation adds one
operation or one group, a finalization confirms one Review with what it
reserved.  The invariant of the three tables follows from these descriptions.
-/

namespace SharedContext

variable {text : IntentText} {hasher : PlanHasher}
  {fromTask : TaskId → ProposedSpaceGroupKey} {tables after : CandidateTables}

/-! ### Closing Reviews -/

/-- Only Reviews that satisfy `closes` may be closed; the rest stays. -/
structure ReviewsClosed (closes : CandidateReviewRecord → Prop)
    (before after : CandidateTables) : Prop where
  origin : ∀ new ∈ after.candidateReview, ∃ old ∈ before.candidateReview,
    new.candidateId = old.candidateId ∧ new.sourceEpisode = old.sourceEpisode ∧
      (new = old ∨ closes old ∧ (old.status = .pending ∨ old.status = .discarded) ∧
        (new.status = .discarded ∨ new.status = .expired))
  operations : after.candidateConfirmationOperation = before.candidateConfirmationOperation
  groups : after.proposedSpaceGroup = before.proposedSpaceGroup
  kept : ∀ old ∈ before.candidateReview, ∃ new ∈ after.candidateReview,
    new.candidateId = old.candidateId

namespace ReviewsClosed

variable {closes closesToo : CandidateReviewRecord → Prop}

theorem refl (closes : CandidateReviewRecord → Prop) (tables : CandidateTables) :
    ReviewsClosed closes tables tables where
  origin new newMem := ⟨new, newMem, rfl, rfl, Or.inl rfl⟩
  operations := rfl
  groups := rfl
  kept old oldMem := ⟨old, oldMem, rfl⟩

theorem mono (closed : ReviewsClosed closes tables after)
    (weaker : ∀ old, closes old → closesToo old) : ReviewsClosed closesToo tables after where
  origin := by
    intro new newMem
    obtain ⟨old, oldMem, sameCandidate, sameEpisode, changed⟩ := closed.origin new newMem
    exact ⟨old, oldMem, sameCandidate, sameEpisode,
      changed.imp_right fun isClosed => ⟨weaker old isClosed.1, isClosed.2⟩⟩
  operations := closed.operations
  groups := closed.groups
  kept := closed.kept

/-- Closing in two steps, where the second closes Pending Reviews only. -/
theorem trans {third : CandidateTables} (closed : ReviewsClosed closes tables after)
    (closedToo : ReviewsClosed closesToo after third)
    (pendingOnly : ∀ old, closesToo old → old.status = .pending) :
    ReviewsClosed (fun old => closes old ∨ closesToo old) tables third where
  origin := by
    intro new newMem
    obtain ⟨middle, middleMem, middleCandidate, middleEpisode, changedToo⟩ :=
      closedToo.origin new newMem
    obtain ⟨old, oldMem, sameCandidate, sameEpisode, changed⟩ := closed.origin middle middleMem
    refine ⟨old, oldMem, middleCandidate.trans sameCandidate, middleEpisode.trans sameEpisode, ?_⟩
    rcases changedToo with rfl | ⟨closesMiddle, _, isClosed⟩
    · exact changed.imp_right fun isClosed => ⟨Or.inl isClosed.1, isClosed.2⟩
    · have pending := pendingOnly middle closesMiddle
      rcases changed with rfl | ⟨_, _, middleClosed⟩
      · exact Or.inr ⟨Or.inr closesMiddle, Or.inl pending, isClosed⟩
      · rw [pending] at middleClosed
        simp at middleClosed
  operations := closedToo.operations.trans closed.operations
  groups := closedToo.groups.trans closed.groups
  kept := by
    intro old oldMem
    obtain ⟨middle, middleMem, middleCandidate⟩ := closed.kept old oldMem
    obtain ⟨new, newMem, newCandidate⟩ := closedToo.kept middle middleMem
    exact ⟨new, newMem, newCandidate.trans middleCandidate⟩

theorem unchanged (closed : ReviewsClosed closes tables after) {old : CandidateReviewRecord}
    (oldMem : old ∈ tables.candidateReview)
    (isKept : old.status = .pending ∨ old.status = .discarded → ¬ closes old) :
    old ∈ after.candidateReview := by
  obtain ⟨new, newMem, sameCandidate⟩ := closed.kept old oldMem
  obtain ⟨origin, originMem, originCandidate, _, sameRow | ⟨closesOrigin, wasOpen, _⟩⟩ :=
    closed.origin new newMem
  · have isOld := Table.eq_of_key originMem oldMem (originCandidate.symm.trans sameCandidate)
    rw [← isOld, ← sameRow]
    exact newMem
  · have isOld := Table.eq_of_key originMem oldMem (originCandidate.symm.trans sameCandidate)
    subst isOld
    exact absurd closesOrigin (isKept wasOpen)

end ReviewsClosed

theorem cleanup_closed {now : Nat} {report : CandidateReviewCleanup}
    (ran : cleanupExpiredCandidateReviewsAt tables now = .ok (after, report)) :
    ReviewsClosed (·.isExpired now = true) tables after := by
  simp only [cleanupExpiredCandidateReviewsAt, Result.bind_eq_ok, Result.exists_unit,
    Result.pure_eq_ok] at ran
  obtain ⟨_, made⟩ := ran
  cases made
  refine ⟨?_, rfl, rfl, ?_⟩
  · intro new newMem
    obtain ⟨old, oldMem, newEq⟩ := List.mem_map.mp newMem
    subst newEq
    refine ⟨old, oldMem, ?_⟩
    split
    case isTrue expired =>
      refine ⟨rfl, rfl, Or.inr ⟨expired, ?_, Or.inr rfl⟩⟩
      simp only [CandidateReviewRecord.isExpired, Bool.and_eq_true, Bool.or_eq_true,
        decide_eq_true_eq] at expired
      exact expired.1
    case isFalse => exact ⟨rfl, rfl, Or.inl rfl⟩
  · intro old oldMem
    refine ⟨_, List.mem_map.mpr ⟨old, oldMem, rfl⟩, ?_⟩
    split <;> rfl

/-- The discard names the Review: it is Pending at the version expected. -/
def CandidateReviewDiscard.names (request : CandidateReviewDiscard)
    (review : CandidateReviewRecord) : Prop :=
  review.candidateId = request.candidateId ∧ review.reviewVersion = request.expectedReviewVersion ∧
    review.status = .pending

theorem discardOne_closed {task : TaskSessionSnapshot} {request : CandidateReviewDiscard}
    {now : Nat} {outcome : CandidateReviewDiscardOutcome}
    (ran : discardOneCandidateReview tables task request now = .ok (after, outcome)) :
    ReviewsClosed request.names tables after := by
  simp only [discardOneCandidateReview, Result.bind_eq_ok] at ran
  obtain ⟨record, _, ran⟩ := ran
  split at ran
  case h_1 =>
    simp only [Result.bind_eq_ok, Result.exists_unit, Result.pure_eq_ok] at ran
    cases ran.2
    exact ReviewsClosed.refl _ _
  case h_2 => cases ran
  case h_3 => cases ran
  case h_4 =>
    simp only [Result.bind_eq_ok, Result.exists_unit] at ran
    obtain ⟨_, _, _, ran⟩ := ran
    split at ran
    case h_1 => cases ran
    case h_2 =>
      cases ran
      refine ⟨?_, rfl, rfl, ?_⟩
      · intro new newMem
        obtain ⟨old, oldMem, newEq⟩ := List.mem_map.mp newMem
        subst newEq
        refine ⟨old, oldMem, ?_⟩
        split
        case isTrue matched =>
          obtain ⟨sameCandidate, sameVersion, pending⟩ := of_decide_eq_true matched
          exact ⟨rfl, rfl, Or.inr ⟨⟨sameCandidate, sameVersion, pending⟩, Or.inl pending,
            Or.inl rfl⟩⟩
        case isFalse => exact ⟨rfl, rfl, Or.inl rfl⟩
      · intro old oldMem
        refine ⟨_, List.mem_map.mpr ⟨old, oldMem, rfl⟩, ?_⟩
        split <;> rfl

@[simp]
theorem scopedError_eq_ok {α : Type} {result : Result α} {candidateId : CandidateId}
    {outcome : String} {value : α} :
    scopedError result candidateId outcome = .ok value ↔ result = .ok value := by
  cases result <;> simp [scopedError]

theorem discardEach_closed {task : TaskSessionSnapshot} {now : Nat}
    {requests : List CandidateReviewDiscard} {outcomes : List CandidateReviewDiscardOutcome}
    (ran : discardEach task now requests tables = .ok (after, outcomes)) :
    ReviewsClosed (fun old => ∃ request ∈ requests, request.names old) tables after := by
  induction requests generalizing tables outcomes with
  | nil =>
      cases ran
      exact ReviewsClosed.refl _ _
  | cons request rest ih =>
      simp only [discardEach, Result.bind_eq_ok, scopedError_eq_ok, Prod.exists,
        Result.pure_eq_ok] at ran
      obtain ⟨middle, outcome, first, _, _, others, made⟩ := ran
      cases made
      have pendingOnly : ∀ old : CandidateReviewRecord,
          (∃ other ∈ rest, other.names old) → old.status = .pending := by
        rintro old ⟨_, _, named⟩
        exact named.2.2
      refine ((discardOne_closed first).trans (ih others) pendingOnly).mono ?_
      rintro old (named | ⟨other, otherMem, named⟩)
      · exact ⟨request, List.mem_cons_self, named⟩
      · exact ⟨other, List.mem_cons_of_mem _ otherMem, named⟩

/-! ### Opening Reviews -/

/-- New Reviews are Pending; the rest stays. -/
structure ReviewsOpened (before after : CandidateTables) : Prop where
  kept : ∀ old ∈ before.candidateReview, old ∈ after.candidateReview
  origin : ∀ new ∈ after.candidateReview, new ∈ before.candidateReview ∨ new.status = .pending
  operations : after.candidateConfirmationOperation = before.candidateConfirmationOperation
  groups : after.proposedSpaceGroup = before.proposedSpaceGroup

theorem ReviewsOpened.of_eq (reviewsEq : after.candidateReview = tables.candidateReview)
    (operationsEq : after.candidateConfirmationOperation = tables.candidateConfirmationOperation)
    (groupsEq : after.proposedSpaceGroup = tables.proposedSpaceGroup) :
    ReviewsOpened tables after where
  kept _ oldMem := reviewsEq ▸ oldMem
  origin _ newMem := Or.inl (reviewsEq ▸ newMem)
  operations := operationsEq
  groups := groupsEq

theorem ReviewsOpened.trans {first second third : CandidateTables}
    (before : ReviewsOpened first second) (after : ReviewsOpened second third) :
    ReviewsOpened first third where
  kept old oldMem := after.kept old (before.kept old oldMem)
  origin := by
    intro new newMem
    rcases after.origin new newMem with middleMem | pending
    · exact before.origin new middleMem
    · exact Or.inr pending
  operations := after.operations.trans before.operations
  groups := after.groups.trans before.groups

theorem initializeCandidateReview_opened (tables : CandidateTables)
    (buildId : CandidateBuildId) (submissionId : SubmissionId) (candidateId : CandidateId)
    (now expiresAt : Nat) :
    ReviewsOpened tables
      (initializeCandidateReview tables buildId submissionId candidateId now expiresAt) := by
  have unchanged := ReviewsOpened.of_eq (Eq.refl tables.candidateReview)
    (Eq.refl tables.candidateConfirmationOperation) (Eq.refl tables.proposedSpaceGroup)
  unfold initializeCandidateReview
  dsimp only
  split
  case h_1 => exact unchanged
  case h_2 =>
    split
    case isTrue => exact unchanged
    case isFalse =>
      split
      case h_1 inserted insertEq =>
        refine ⟨fun old oldMem => (Table.mem_insert insertEq).mpr (Or.inl oldMem), ?_, rfl, rfl⟩
        intro new newMem
        rcases (Table.mem_insert insertEq).mp newMem with stored | rfl
        · exact Or.inl stored
        · exact Or.inr rfl
      case h_2 => exact unchanged

theorem prepare_opened {episodes : WorkEpisodeId → Option WorkEpisodeView}
    {newIds : NewBuildIds} {episodeId : WorkEpisodeId}
    {items : List CandidateBuildItemPreparation}
    {duplicates : List CandidateBuildDuplicatePreparation} {view : CandidateBuildView}
    (ran : prepareCandidateBuildWithDuplicates episodes tables newIds episodeId items duplicates =
      .ok (after, view)) : ReviewsOpened tables after := by
  simp only [prepareCandidateBuildWithDuplicates, Result.bind_eq_ok, Result.exists_unit] at ran
  obtain ⟨_, ran⟩ := ran
  split at ran
  case h_1 => cases ran
  case h_2 episode found =>
    split at ran
    case h_1 => cases ran
    case h_2 finalCheckpointId closed =>
      simp only [Result.bind_eq_ok, Result.exists_unit, Result.pure_eq_ok, Prod.exists] at ran
      obtain ⟨_, opened, buildId, required, merged, merges, _, _, made⟩ := ran
      cases made
      have requiredOpened : ReviewsOpened tables opened := by
        unfold requireCandidateBuild at required
        split at required
        case h_1 =>
          cases required
          exact ReviewsOpened.of_eq rfl rfl rfl
        case h_2 =>
          split at required
          case h_1 =>
            cases required
            exact ReviewsOpened.of_eq rfl rfl rfl
          case h_2 => cases required
      have mergedOpened : ReviewsOpened opened merged := by
        rw [(mergeClassification_ok merges).frame]
        exact ReviewsOpened.of_eq rfl rfl rfl
      exact (requiredOpened.trans mergedOpened).trans (ReviewsOpened.of_eq rfl rfl rfl)

theorem record_opened {buildId : CandidateBuildId} {submissionId : SubmissionId}
    {status : CandidateBuildItemStatus} {candidateId : Option CandidateId}
    {eventId : Option EventId} {errorCode : Option String} {now : Nat}
    {view : CandidateBuildView}
    (ran : recordCandidateBuildItemResult tables buildId submissionId status candidateId eventId
      errorCode now = .ok (after, view)) : ReviewsOpened tables after := by
  simp only [recordCandidateBuildItemResult, Result.bind_eq_ok, Result.exists_unit] at ran
  obtain ⟨_, _, ran⟩ := ran
  split at ran
  case h_1 => cases ran
  case h_2 existing found =>
    simp only [Result.bind_eq_ok, Result.pure_eq_ok] at ran
    obtain ⟨written, wrote, reviewed, opened, _, _, made⟩ := ran
    cases made
    have wroteOpened : ReviewsOpened tables written := by
      unfold writeItemResult at wrote
      split at wrote
      case isTrue =>
        simp only [Result.bind_eq_ok, Result.exists_unit, Result.pure_eq_ok] at wrote
        rw [← wrote.2]
        exact ReviewsOpened.of_eq rfl rfl rfl
      case isFalse =>
        simp only [Result.bind_eq_ok, Result.pure_eq_ok] at wrote
        obtain ⟨state, _, made⟩ := wrote
        cases made
        exact ReviewsOpened.of_eq rfl rfl rfl
    have reviewedOpened : ReviewsOpened written reviewed := by
      split at opened
      case isTrue =>
        cases candidateId with
        | none => cases opened
        | some candidate =>
          simp only [Result.bind_eq_ok, Result.exists_unit, Result.pure_eq_ok] at opened
          obtain ⟨_, _, made⟩ := opened
          rw [← made]
          exact initializeCandidateReview_opened _ _ _ _ _ _
      case isFalse =>
        cases opened
        exact ReviewsOpened.of_eq rfl rfl rfl
    exact (wroteOpened.trans reviewedOpened).trans (ReviewsOpened.of_eq rfl rfl rfl)

theorem performBuildStep_opened (episodes : Episodes) (store : BuildStore) (step : BuildStep) :
    ReviewsOpened store.tables (performBuildStep episodes store step).tables := by
  rcases performBuildStep_cases episodes store step with unchanged | prepared | wrote | recorded
  · rw [unchanged]
    exact ReviewsOpened.of_eq rfl rfl rfl
  · obtain ⟨_, _, _, _, tables, view, _, ran, stepEq⟩ := prepared
    rw [stepEq]
    exact prepare_opened ran
  · obtain ⟨submissionId, stepEq⟩ := wrote
    rw [stepEq]
    exact ReviewsOpened.of_eq rfl rfl rfl
  · obtain ⟨_, _, _, _, _, _, _, tables, view, ran, stepEq⟩ := recorded
    rw [stepEq]
    exact record_opened ran

theorem replaceCandidateAnalysis_opened {candidateId : CandidateId}
    {analysisStatus : CandidateAnalysisStatus} {validated : Result Unit} {generation : Nat}
    (ran : replaceCandidateAnalysis tables candidateId analysisStatus validated =
      .ok (after, generation)) : ReviewsOpened tables after := by
  simp only [replaceCandidateAnalysis] at ran
  split at ran
  case h_1 => cases ran
  case h_2 =>
    simp only [Result.bind_eq_ok, Result.exists_unit] at ran
    obtain ⟨_, _, ran⟩ := ran
    split at ran
    case h_1 =>
      cases ran
      exact ReviewsOpened.of_eq rfl rfl rfl
    case h_2 =>
      cases ran
      exact ReviewsOpened.of_eq rfl rfl rfl

/-! ### Reservations -/

/-- A group was added for the new Space of a plan. -/
structure GroupAdded (fromTask : TaskId → ProposedSpaceGroupKey) (request : ConfirmationRequest)
    (plan : CandidateConfirmationPlan) (before after : CandidateTables)
    (mapping : ProposedSpaceGroupMapping) : Prop where
  requested : request.proposedSpaceGroupKey = some mapping.proposedSpaceGroupKey
  key : mapping.proposedSpaceGroupKey = fromTask mapping.taskId
  task : mapping.taskId = request.expectedTaskId
  candidate : mapping.candidateId = plan.operation.candidateId
  created : plan.confirmation.createdSpaceId = some mapping.spaceId
  primary : plan.confirmation.primarySpaceId = mapping.spaceId
  status : mapping.status = .reserved
  freshKey : ∀ other ∈ before.proposedSpaceGroup,
    other.proposedSpaceGroupKey ≠ mapping.proposedSpaceGroupKey
  freshCandidate : ∀ other ∈ before.proposedSpaceGroup, other.candidateId ≠ mapping.candidateId
  groups : ∀ other, other ∈ after.proposedSpaceGroup ↔
    other ∈ before.proposedSpaceGroup ∨ other = mapping
  frame : after = { before with proposedSpaceGroup := after.proposedSpaceGroup }

/-- What reserving the group of a request does: nothing, or one group more. -/
def GroupReserved (fromTask : TaskId → ProposedSpaceGroupKey) (request : ConfirmationRequest)
    (plan : CandidateConfirmationPlan) (before after : CandidateTables) : Prop :=
  after = before ∨ ∃ mapping, GroupAdded fromTask request plan before after mapping

theorem insertProposedSpaceGroup_ok {mapping : ProposedSpaceGroupMapping}
    (ran : insertProposedSpaceGroup tables mapping = .ok after) :
    (∀ other ∈ tables.proposedSpaceGroup, other.candidateId ≠ mapping.candidateId) ∧
      (∀ other ∈ tables.proposedSpaceGroup,
        other.proposedSpaceGroupKey ≠ mapping.proposedSpaceGroupKey) ∧
      (∀ other, other ∈ after.proposedSpaceGroup ↔
        other ∈ tables.proposedSpaceGroup ∨ other = mapping) ∧
      after = { tables with proposedSpaceGroup := after.proposedSpaceGroup } := by
  simp only [insertProposedSpaceGroup, Result.bind_eq_ok, Result.exists_unit,
    Result.require_eq_ok] at ran
  obtain ⟨freshCandidate, _, ran⟩ := ran
  split at ran
  case h_1 inserted insertEq =>
    cases ran
    exact ⟨freshCandidate, (Table.insert_eq_some.mp insertEq).1,
      fun other => Table.mem_insert insertEq, rfl⟩
  case h_2 => cases ran

theorem reserveOptionalSpaceGroup_ok {request : ConfirmationRequest}
    {plan : CandidateConfirmationPlan}
    (ran : reserveOptionalSpaceGroup fromTask tables request.proposedSpaceGroupKey
      request.expectedTaskId request.expectedIntentRevisionId plan = .ok after) :
    GroupReserved fromTask request plan tables after := by
  unfold reserveOptionalSpaceGroup at ran
  split at ran
  case h_2 =>
    cases ran
    exact Or.inl rfl
  case h_1 _ key requested =>
    simp only [reserveProposedSpaceGroup, Result.bind_eq_ok, Result.exists_unit,
      Result.require_eq_ok] at ran
    obtain ⟨keyEq, ran⟩ := ran
    split at ran
    case h_1 => cases ran
    case h_2 spaceId created =>
      simp only [Result.bind_eq_ok, Result.exists_unit, Result.require_eq_ok] at ran
      obtain ⟨primary, found, _, ran⟩ := ran
      split at ran
      case h_1 =>
        simp only [Result.bind_eq_ok, Result.exists_unit, Result.pure_eq_ok] at ran
        exact Or.inl ran.2.symm
      case h_2 =>
        obtain ⟨freshCandidate, freshKey, groups, frame⟩ := insertProposedSpaceGroup_ok ran
        exact Or.inr ⟨_, requested, keyEq, rfl, rfl, created, primary.symm, rfl, freshKey,
          freshCandidate, groups, frame⟩

theorem readCandidateConfirmationOperation_eq_some {candidateId : CandidateId}
    {operation : CandidateConfirmationOperationRow}
    (read : readCandidateConfirmationOperation hasher tables candidateId = .ok (some operation)) :
    operation ∈ tables.candidateConfirmationOperation ∧ operation.candidateId = candidateId := by
  unfold readCandidateConfirmationOperation at read
  split at read
  case h_1 => cases read
  case h_2 row found =>
    simp only [Result.bind_eq_ok, Result.exists_unit, Result.pure_eq_ok] at read
    obtain ⟨_, _, same⟩ := read
    cases same
    exact Table.find?_eq_some.mp found

/-- A new operation was reserved for a Pending Review at the version of its plan. -/
structure OperationReserved (hasher : PlanHasher) (plan : CandidateConfirmationPlan)
    (review : CandidateReviewRecord) (before after : CandidateTables)
    (operation : CandidateConfirmationOperationRow) : Prop where
  row : operation = ⟨plan.operation.candidateId, plan.operation.reviewParentVersion,
    plan.operationHash, plan.planHash hasher, plan, .reserved⟩
  pending : review.status = .pending
  version : review.reviewVersion = plan.operation.reviewParentVersion
  fresh : ∀ other ∈ before.candidateConfirmationOperation,
    other.candidateId ≠ plan.operation.candidateId
  operations : ∀ other, other ∈ after.candidateConfirmationOperation ↔
    other ∈ before.candidateConfirmationOperation ∨ other = operation
  reviews : after.candidateReview = before.candidateReview
  groups : after.proposedSpaceGroup = before.proposedSpaceGroup

/-- What a reservation does: it finds the operation of the Candidate, or it
reserves a new one; either way it may add a group. -/
inductive ReservationEffect (hasher : PlanHasher) (fromTask : TaskId → ProposedSpaceGroupKey)
    (request : ConfirmationRequest) (review : CandidateReviewRecord)
    (before after : CandidateTables) : Prop
  | existing (operation : CandidateConfirmationOperationRow)
      (operationMem : operation ∈ before.candidateConfirmationOperation)
      (sameCandidate : operation.candidateId = request.plan.operation.candidateId)
      (reserved : GroupReserved fromTask request operation.plan before after)
  | created (middle : CandidateTables) (operation : CandidateConfirmationOperationRow)
      (added : OperationReserved hasher request.plan review before middle operation)
      (reserved : GroupReserved fromTask request request.plan middle after)

theorem reserveNewOperation_ok {request : ConfirmationRequest} {review : CandidateReviewRecord}
    {reservation : CandidateConfirmationReservation}
    (ran : reserveNewOperation hasher fromTask tables request review = .ok (after, reservation)) :
    ReservationEffect hasher fromTask request review tables after := by
  simp only [reserveNewOperation, Result.bind_eq_ok, Result.exists_unit,
    Result.require_eq_ok] at ran
  obtain ⟨grouped, group, pending, version, ran⟩ := ran
  have reserved := reserveOptionalSpaceGroup_ok group
  have groupedOperations : grouped.candidateConfirmationOperation =
      tables.candidateConfirmationOperation := by
    rcases reserved with same | ⟨mapping, added⟩
    · rw [same]
    · rw [added.frame]
  have groupedReviews : grouped.candidateReview = tables.candidateReview := by
    rcases reserved with same | ⟨mapping, added⟩
    · rw [same]
    · rw [added.frame]
  split at ran
  case h_1 => cases ran
  case h_2 analysis _ =>
    simp only [Result.bind_eq_ok, Result.exists_unit] at ran
    obtain ⟨_, ran⟩ := ran
    split at ran
    case h_1 => cases ran
    case h_2 inserted insertEq =>
      simp only [Result.bind_eq_ok] at ran
      obtain ⟨_, _, ran⟩ := ran
      rw [groupedOperations] at insertEq
      split at ran
      case h_1 => cases ran
      case h_2 =>
        cases ran
        -- The operation is inserted first here; the two writes are to two tables.
        refine .created { tables with candidateConfirmationOperation := inserted } _
          ⟨rfl, pending, version, (Table.insert_eq_some.mp insertEq).1,
            fun other => Table.mem_insert insertEq, rfl, rfl⟩ ?_
        rcases reserved with same | ⟨mapping, added⟩
        · exact Or.inl (by rw [same])
        · refine Or.inr ⟨mapping, added.requested, added.key, added.task, added.candidate,
            added.created, added.primary, added.status, added.freshKey, added.freshCandidate,
            added.groups, ?_⟩
          rw [added.frame]

theorem reserveInTransaction_ok {runtime : RuntimeDatabase} {request : ConfirmationRequest}
    {reservation : CandidateConfirmationReservation}
    (ran : reserveInTransaction text hasher fromTask runtime tables request =
      .ok (after, reservation)) :
    ∃ review ∈ tables.candidateReview,
      review.candidateId = request.plan.operation.candidateId ∧
      review.sourceEpisode.taskId = request.expectedTaskId ∧
      ReservationEffect hasher fromTask request review tables after := by
  simp only [reserveInTransaction, Result.bind_eq_ok] at ran
  obtain ⟨task, owned, review, isReview, found, read, ran⟩ := ran
  have taskEq : task.taskId = request.expectedTaskId := by
    unfold requireActiveTask at owned
    split at owned
    case h_1 => cases owned
    case h_2 =>
      simp only [Result.bind_eq_ok, Result.exists_unit, Result.require_eq_ok,
        Result.pure_eq_ok] at owned
      obtain ⟨snapshot, _, ⟨sameTask, _⟩, same⟩ := owned
      rw [← same]
      exact sameTask
  unfold requireTaskReview at isReview
  split at isReview
  case h_1 => cases isReview
  case h_2 stored isStored =>
    simp only [Result.bind_eq_ok, Result.exists_unit, Result.require_eq_ok,
      Result.pure_eq_ok] at isReview
    obtain ⟨⟨_, ownerEq⟩, same⟩ := isReview
    subst same
    obtain ⟨storedMem, storedCandidate⟩ := Table.find?_eq_some.mp isStored
    refine ⟨stored, storedMem, storedCandidate, ownerEq.trans taskEq, ?_⟩
    split at ran
    case h_1 existing =>
      simp only [Result.bind_eq_ok, Result.exists_unit, Result.pure_eq_ok] at ran
      obtain ⟨_, grouped, group, made⟩ := ran
      cases made
      obtain ⟨existingMem, existingCandidate⟩ := readCandidateConfirmationOperation_eq_some read
      exact .existing existing existingMem existingCandidate (reserveOptionalSpaceGroup_ok group)
    case h_2 => exact reserveNewOperation_ok ran

/-! ### Finalization -/

/-- What one finalization does: it finds the operation committed, or it confirms
the Pending Review at the version of the operation. -/
inductive FinalizationEffect (request : CandidateConfirmationFinalize)
    (before after : CandidateTables) : Prop
  | audited (unchanged : after = before)
  | confirmed (operation : CandidateConfirmationOperationRow)
      (operationMem : operation ∈ before.candidateConfirmationOperation)
      (sameCandidate : operation.candidateId = request.candidateId)
      (confirmation : operation.plan.confirmation.confirmationId = request.confirmationId)
      (context : operation.plan.resultContextId = request.resultContextId)
      (reserved : operation.status = .reserved)
      (changed : after = commitConfirmation before request fun review =>
        review.candidateId = request.candidateId ∧ review.status = .pending ∧
          review.reviewVersion = operation.reviewParentVersion)
      (one : ∃ review ∈ before.candidateReview, review.candidateId = request.candidateId ∧
        review.status = .pending ∧ review.reviewVersion = operation.reviewParentVersion)

theorem finalizeOne_ok {request : CandidateConfirmationFinalize}
    {outcome : CandidateConfirmationFinalizeOutcome}
    (ran : finalizeOneCandidateConfirmation hasher fromTask tables request =
      .ok (after, outcome)) : FinalizationEffect request tables after := by
  simp only [finalizeOneCandidateConfirmation, Result.bind_eq_ok] at ran
  obtain ⟨found, read, ran⟩ := ran
  split at ran
  case h_1 => cases ran
  case h_2 operation =>
    obtain ⟨operationMem, sameCandidate⟩ := readCandidateConfirmationOperation_eq_some read
    simp only [Result.bind_eq_ok, Result.exists_unit, Result.require_eq_ok] at ran
    obtain ⟨⟨_, confirmation, context⟩, ran⟩ := ran
    split at ran
    case isTrue =>
      unfold auditConfirmed at ran
      split at ran
      case h_1 => cases ran
      case h_2 =>
        simp only [Result.bind_eq_ok, Result.exists_unit] at ran
        obtain ⟨_, _, _, ran⟩ := ran
        split at ran
        case h_1 =>
          simp only [Result.bind_eq_ok, Result.exists_unit, Result.pure_eq_ok] at ran
          obtain ⟨_, made⟩ := ran
          cases made
          exact .audited rfl
        case h_2 =>
          cases ran
          exact .audited rfl
    case isFalse notCommitted =>
      simp only [Result.bind_eq_ok, Result.exists_unit, Result.require_eq_ok] at ran
      obtain ⟨countEq, _, _, ran⟩ := ran
      split at ran
      case h_1 => cases ran
      case h_2 =>
        split at ran
        case h_1 => cases ran
        case h_2 =>
          cases ran
          have reserved : operation.status = .reserved := by
            cases isStatus : operation.status with
            | reserved => rfl
            | committed => exact absurd isStatus notCommitted
          obtain ⟨review, reviewMem, isParent⟩ :=
            List.countP_pos_iff.mp (countEq ▸ Nat.one_pos)
          exact .confirmed operation operationMem sameCandidate confirmation context reserved rfl
            ⟨review, reviewMem, of_decide_eq_true isParent⟩

end SharedContext
