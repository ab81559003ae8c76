import SharedContext.TaskRuntime.ConfirmationInvariant
import SharedContext.TaskRuntime.LineageRuns

/-!
# Confirmation over two stores

A confirmation is reserved in the runtime store, written to Git, and finalized
in the runtime store.  The two stores share no transaction, so any call may come
between, and a crash is a step that never follows.  A run interleaves all of
them with the calls that extend lineages, build Candidates and analyse them.
-/

namespace SharedContext

variable (text : IntentText) (hasher : PlanHasher)
  (fromTask : TaskId → ProposedSpaceGroupKey) (episodes : Episodes)

/-- Both stores; Git holds the plans whose events are committed. -/
structure ConfirmationStore where
  runtime : RuntimeDatabase
  candidates : CandidateTables
  git : List CandidateConfirmationPlan

def ConfirmationStore.empty : ConfirmationStore :=
  ⟨.empty, .empty, []⟩

inductive ConfirmationStep
  | lineage (call : LineageCall)
  | build (step : BuildStep)
  | replaceAnalysis (candidateId : CandidateId) (analysisStatus : CandidateAnalysisStatus)
      (validated : Result Unit)
  | reserve (request : ConfirmationRequest) (now : Nat)
  | commitToGit (candidateIds : List CandidateId)
  | finalize (requests : List CandidateConfirmationFinalize)
  | discard (requests : List CandidateReviewDiscard) (sweepTime now : Nat)
  | cleanup (now : Nat)

def reservedPlans (tables : CandidateTables) (candidateIds : List CandidateId) :
    List CandidateConfirmationPlan :=
  (candidateIds.filterMap tables.candidateConfirmationOperation.find?).map (·.plan)

/-- A refused call leaves the stores as they were, but for a committed sweep. -/
def performConfirmationStep (store : ConfirmationStore) : ConfirmationStep → ConfirmationStore
  | .lineage call =>
      match performCall text store.runtime call with
      | .ok (runtime, _) => { store with runtime }
      | .error _ => store
  | .build step =>
      { store with candidates := (performBuildStep episodes ⟨store.candidates, []⟩ step).tables }
  | .replaceAnalysis candidateId analysisStatus validated =>
      match replaceCandidateAnalysis store.candidates candidateId analysisStatus validated with
      | .ok (candidates, _) => { store with candidates }
      | .error _ => store
  | .reserve request now =>
      { store with
        candidates := (reserveCandidateConfirmation text hasher fromTask store.runtime
          store.candidates request now).1 }
  | .commitToGit candidateIds =>
      { store with git := store.git ++ reservedPlans store.candidates candidateIds }
  | .finalize requests =>
      match finalizeCandidateConfirmations hasher fromTask store.candidates requests with
      | .ok (candidates, _) => { store with candidates }
      | .error _ => store
  | .discard requests sweepTime now =>
      { store with
        candidates := (discardCandidateReviews text store.runtime store.candidates requests
          sweepTime now).1 }
  | .cleanup now =>
      match cleanupExpiredCandidateReviewsAt store.candidates now with
      | .ok (candidates, _) => { store with candidates }
      | .error _ => store

/-- The runs from empty stores whose steps are all allowed. -/
inductive ConfirmationRun (allowed : ConfirmationStore → ConfirmationStep → Prop) :
    ConfirmationStore → Prop
  | start : ConfirmationRun allowed .empty
  | step {store : ConfirmationStore} (run : ConfirmationRun allowed store)
      (step : ConfirmationStep) (isAllowed : allowed store step) :
      ConfirmationRun allowed (performConfirmationStep text hasher fromTask episodes store step)

variable {text hasher fromTask episodes}

/-! ### What one step can do -/

/-- The step may close the Review: a sweep finds it expired, or a discard names it. -/
def ConfirmationStep.closes (hasher : PlanHasher) (step : ConfirmationStep)
    (review : CandidateReviewRecord) : Prop :=
  match step with
  | .cleanup now => review.isExpired now = true
  | .reserve request now => request.validate hasher = .ok () ∧ review.isExpired now = true
  | .discard requests sweepTime _ =>
      review.isExpired sweepTime = true ∨ ∃ request ∈ requests, request.names review
  | .lineage _ | .build _ | .replaceAnalysis .. | .commitToGit _ | .finalize _ => False

theorem afterCleanup_cases {α : Type} (tables : CandidateTables) (now : Nat)
    (transaction : CandidateTables → Result (CandidateTables × α)) :
    (afterCleanup tables now transaction).1 = tables ∨
      ∃ swept, ReviewsClosed (·.isExpired now = true) tables swept ∧
        ((afterCleanup tables now transaction).1 = swept ∨
          ∃ after answer, transaction swept = .ok (after, answer) ∧
            (afterCleanup tables now transaction).1 = after) := by
  unfold afterCleanup
  cases swept : cleanupExpiredCandidateReviewsAt tables now with
  | error error => exact Or.inl rfl
  | ok pair =>
      refine Or.inr ⟨pair.1, cleanup_closed swept, ?_⟩
      dsimp only
      cases ran : transaction pair.1 with
      | error error => exact Or.inl rfl
      | ok answered => exact Or.inr ⟨answered.1, answered.2, rfl, rfl⟩

/-- What a step may do to the Candidate tables. -/
inductive StepEffect (hasher : PlanHasher) (fromTask : TaskId → ProposedSpaceGroupKey)
    (store : ConfirmationStore) : ConfirmationStep → CandidateTables → Prop
  | opened {step : ConfirmationStep} {after : CandidateTables}
      (opened : ReviewsOpened store.candidates after) : StepEffect hasher fromTask store step after
  | closed {step : ConfirmationStep} {after : CandidateTables}
      (closed : ReviewsClosed (step.closes hasher) store.candidates after) :
      StepEffect hasher fromTask store step after
  | reserved {request : ConfirmationRequest} {now : Nat} {swept after : CandidateTables}
      {review : CandidateReviewRecord} (valid : request.validate hasher = .ok ())
      (isSwept : ReviewsClosed ((ConfirmationStep.reserve request now).closes hasher)
        store.candidates swept)
      (reviewMem : review ∈ swept.candidateReview)
      (sameCandidate : review.candidateId = request.plan.operation.candidateId)
      (owner : review.sourceEpisode.taskId = request.expectedTaskId)
      (effect : ReservationEffect hasher fromTask request review swept after) :
      StepEffect hasher fromTask store (.reserve request now) after
  | finalized {requests : List CandidateConfirmationFinalize} {after : CandidateTables}
      {outcomes : List CandidateConfirmationFinalizeOutcome}
      (ran : finalizeEach hasher fromTask requests store.candidates = .ok (after, outcomes)) :
      StepEffect hasher fromTask store (.finalize requests) after

theorem StepEffect.unchanged {store : ConfirmationStore} {step : ConfirmationStep} :
    StepEffect hasher fromTask store step store.candidates :=
  .opened (ReviewsOpened.of_eq rfl rfl rfl)

theorem performConfirmationStep_effect (store : ConfirmationStore) (step : ConfirmationStep) :
    StepEffect hasher fromTask store step
      (performConfirmationStep text hasher fromTask episodes store step).candidates := by
  cases step with
  | lineage call =>
      simp only [performConfirmationStep]
      split <;> exact .unchanged
  | build step => exact .opened (performBuildStep_opened episodes ⟨store.candidates, []⟩ step)
  | replaceAnalysis candidateId analysisStatus validated =>
      simp only [performConfirmationStep]
      split
      case h_1 ran => exact .opened (replaceCandidateAnalysis_opened ran)
      case h_2 => exact .unchanged
  | reserve request now =>
      simp only [performConfirmationStep, reserveCandidateConfirmation]
      split
      case h_1 => exact .unchanged
      case h_2 valid =>
        rcases afterCleanup_cases store.candidates now fun swept =>
            reserveInTransaction text hasher fromTask store.runtime swept request with
          same | ⟨swept, closed, same | ⟨after, answer, ran, same⟩⟩
        · rw [same]
          exact .unchanged
        · rw [same]
          exact .closed (closed.mono fun _ expired => ⟨valid, expired⟩)
        · rw [same]
          obtain ⟨review, reviewMem, sameCandidate, owner, effect⟩ := reserveInTransaction_ok ran
          exact .reserved valid (closed.mono fun _ expired => ⟨valid, expired⟩) reviewMem
            sameCandidate owner effect
  | commitToGit candidateIds => exact .unchanged
  | finalize requests =>
      simp only [performConfirmationStep]
      split
      case h_1 ran =>
        simp only [finalizeCandidateConfirmations, Result.bind_eq_ok, Result.exists_unit] at ran
        exact .finalized ran.2.2
      case h_2 => exact .unchanged
  | discard requests sweepTime now =>
      simp only [performConfirmationStep, discardCandidateReviews]
      split
      case h_1 => exact .unchanged
      case h_2 first rest =>
        split
        case h_1 => exact .unchanged
        case h_2 valid =>
          rcases afterCleanup_cases store.candidates sweepTime fun swept => do
              let task ← requireActiveTask text store.runtime first.locator first.expectedTaskId
                first.expectedIntentRevisionId
                "Candidate discard Task/Intent ownership CAS is stale"
              discardEach task now (first :: rest) swept with
            same | ⟨swept, closed, same | ⟨after, answer, ran, same⟩⟩
          · rw [same]
            exact .unchanged
          · rw [same]
            exact .closed (closed.mono fun _ expired => Or.inl expired)
          · rw [same]
            obtain ⟨task, _, ran⟩ := Result.bind_eq_ok.mp ran
            refine .closed (closed.trans (discardEach_closed ran) ?_)
            rintro old ⟨_, _, named⟩
            exact named.2.2
  | cleanup now =>
      simp only [performConfirmationStep]
      split
      case h_1 ran => exact .closed (cleanup_closed ran)
      case h_2 => exact .unchanged

theorem finalizeEach_preserves {holds : CandidateTables → Prop}
    {requests : List CandidateConfirmationFinalize} {tables after : CandidateTables}
    {outcomes : List CandidateConfirmationFinalizeOutcome}
    (preserves : ∀ request before after, FinalizationEffect request before after →
      holds before → holds after)
    (ran : finalizeEach hasher fromTask requests tables = .ok (after, outcomes))
    (start : holds tables) : holds after := by
  induction requests generalizing tables outcomes with
  | nil =>
      cases ran
      exact start
  | cons request rest ih =>
      simp only [finalizeEach, Result.bind_eq_ok, scopedError_eq_ok, Prod.exists,
        Result.pure_eq_ok] at ran
      obtain ⟨middle, outcome, first, _, _, others, made⟩ := ran
      cases made
      exact ih others (preserves request tables middle (finalizeOne_ok first) start)

theorem StepEffect.consistent {store : ConfirmationStore} {step : ConfirmationStep}
    {after : CandidateTables} (effect : StepEffect hasher fromTask store step after)
    (consistent : ReviewsConsistent hasher fromTask store.candidates) :
    ReviewsConsistent hasher fromTask after := by
  cases effect with
  | opened opened => exact consistent.opened opened
  | closed closed => exact consistent.closed closed
  | reserved valid isSwept reviewMem sameCandidate owner effect =>
      simp only [ConfirmationRequest.validate, Result.bind_eq_ok, Result.exists_unit] at valid
      exact (consistent.closed isSwept).reservation valid.2 reviewMem sameCandidate owner effect
  | finalized ran =>
      exact finalizeEach_preserves (fun _ _ _ effect before => before.finalized effect) ran
        consistent

theorem ConfirmationRun.consistent {allowed : ConfirmationStore → ConfirmationStep → Prop}
    {store : ConfirmationStore} (run : ConfirmationRun text hasher fromTask episodes allowed store) :
    ReviewsConsistent hasher fromTask store.candidates := by
  induction run with
  | start => exact ReviewsConsistent.empty
  | step run step isAllowed ih => exact (performConfirmationStep_effect _ step).consistent ih

end SharedContext
