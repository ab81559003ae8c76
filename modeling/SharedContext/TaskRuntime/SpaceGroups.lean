import SharedContext.TaskRuntime.ConfirmationRuns

/-!
# Proposed Space groups over runs

A group is stranded when its Candidate can no longer be confirmed: every other
Candidate of the Task is then refused.  Discards and sweeps do not look at the
groups, so no group is stranded exactly as long as they leave the Candidates of
the groups alone.
-/

namespace SharedContext

variable {text : IntentText} {hasher : PlanHasher}
  {fromTask : TaskId → ProposedSpaceGroupKey} {episodes : Episodes}
  {store : ConfirmationStore} {tables after : CandidateTables}

/-- The Candidate of the group can still be confirmed, or it was and the group
is committed. -/
def GroupSettles (tables : CandidateTables) (mapping : ProposedSpaceGroupMapping) : Prop :=
  ∃ review ∈ tables.candidateReview, review.candidateId = mapping.candidateId ∧
    (review.status = .pending ∨ mapping.status = .committed ∧ review.status = .confirmed)

def GroupsSettle (tables : CandidateTables) : Prop :=
  ∀ mapping ∈ tables.proposedSpaceGroup, GroupSettles tables mapping

/-- The step closes no Pending Review whose Candidate holds a group, and it
reserves no group for an operation whose Review it does not keep Pending. -/
structure KeepsGroups (hasher : PlanHasher) (store : ConfirmationStore)
    (step : ConfirmationStep) : Prop where
  spares : ∀ mapping ∈ store.candidates.proposedSpaceGroup,
    ∀ review ∈ store.candidates.candidateReview, review.candidateId = mapping.candidateId →
      review.status = .pending → ¬ step.closes hasher review
  reserves : ∀ request now key, step = .reserve request now →
    request.proposedSpaceGroupKey = some key →
    (∀ mapping ∈ store.candidates.proposedSpaceGroup, mapping.proposedSpaceGroupKey ≠ key) →
      ∀ operation ∈ store.candidates.candidateConfirmationOperation,
        operation.candidateId = request.plan.operation.candidateId →
          ∃ review ∈ store.candidates.candidateReview,
            review.candidateId = operation.candidateId ∧ review.status = .pending ∧
              ¬ step.closes hasher review

instance (tables : CandidateTables) : Decidable (GroupsSettle tables) :=
  inferInstanceAs (Decidable (∀ mapping ∈ tables.proposedSpaceGroup.rows,
    ∃ review ∈ tables.candidateReview.rows, review.candidateId = mapping.candidateId ∧
      (review.status = .pending ∨ mapping.status = .committed ∧ review.status = .confirmed)))

theorem GroupsSettle.opened (settle : GroupsSettle tables) (opened : ReviewsOpened tables after) :
    GroupsSettle after := by
  intro mapping mappingMem
  rw [opened.groups] at mappingMem
  obtain ⟨review, reviewMem, settled⟩ := settle mapping mappingMem
  exact ⟨review, opened.kept review reviewMem, settled⟩

theorem GroupsSettle.closed {closes : CandidateReviewRecord → Prop}
    (settle : GroupsSettle tables) (closed : ReviewsClosed closes tables after)
    (spares : ∀ mapping ∈ tables.proposedSpaceGroup, ∀ review ∈ tables.candidateReview,
      review.candidateId = mapping.candidateId → review.status = .pending → ¬ closes review) :
    GroupsSettle after := by
  intro mapping mappingMem
  rw [closed.groups] at mappingMem
  obtain ⟨review, reviewMem, sameCandidate, settled⟩ := settle mapping mappingMem
  refine ⟨review, closed.unchanged reviewMem ?_, sameCandidate, settled⟩
  intro isOpen
  apply spares mapping mappingMem review reviewMem sameCandidate
  rcases settled with pending | ⟨_, confirmed⟩
  · exact pending
  · rw [confirmed] at isOpen
    simp at isOpen

theorem GroupsSettle.grouped (settle : GroupsSettle tables) {request : ConfirmationRequest}
    {plan : CandidateConfirmationPlan}
    (reserved : GroupReserved fromTask request plan tables after)
    (pending : ∀ mapping, GroupAdded fromTask request plan tables after mapping →
      ∃ review ∈ tables.candidateReview, review.candidateId = plan.operation.candidateId ∧
        review.status = .pending) : GroupsSettle after := by
  rcases reserved with same | ⟨mapping, added⟩
  · rw [same]
    exact settle
  · have reviewsEq : after.candidateReview = tables.candidateReview := by rw [added.frame]
    intro other otherMem
    unfold GroupSettles
    rw [reviewsEq]
    rcases (added.groups other).mp otherMem with stored | rfl
    · exact settle other stored
    · obtain ⟨review, reviewMem, sameCandidate, isPending⟩ := pending other added
      exact ⟨review, reviewMem, sameCandidate.trans added.candidate.symm, Or.inl isPending⟩

theorem GroupsSettle.finalized (settle : GroupsSettle tables)
    {request : CandidateConfirmationFinalize}
    (effect : FinalizationEffect request tables after) : GroupsSettle after := by
  cases effect with
  | audited unchanged => exact unchanged ▸ settle
  | confirmed operation operationMem sameCandidate confirmation context reserved changed one =>
      have committed := commitConfirmation_committed one
      rw [← changed] at committed
      intro new newMem
      obtain ⟨old, oldMem, rfl⟩ := (committed.groups new).mp newMem
      obtain ⟨review, reviewMem, reviewCandidate, settled⟩ := settle old oldMem
      obtain ⟨newReview, newReviewMem, isConfirmed | ⟨sameReview, isOther⟩⟩ :=
        committed.reviewsKept review reviewMem
      · -- The Candidate of the group is the one that was finalized.
        have oldCandidate : old.candidateId = request.candidateId :=
          reviewCandidate.symm.trans (isConfirmed.sameCandidate.symm.trans isConfirmed.candidate)
        refine ⟨newReview, newReviewMem, ?_, Or.inr ⟨commitGroup_status oldCandidate, ?_⟩⟩
        · rw [commitGroup_candidateId]
          exact isConfirmed.candidate.trans oldCandidate.symm
        · rw [CandidateReviewRecord.status, isConfirmed.decision]
          rfl
      · rw [commitGroup_of_ne (reviewCandidate ▸ isOther)]
        exact ⟨newReview, newReviewMem, sameReview ▸ reviewCandidate, sameReview ▸ settled⟩

theorem StepEffect.settle {step : ConfirmationStep}
    (effect : StepEffect hasher fromTask store step after)
    (consistent : ReviewsConsistent hasher fromTask store.candidates)
    (keeps : KeepsGroups hasher store step) (settle : GroupsSettle store.candidates) :
    GroupsSettle after := by
  cases effect with
  | opened opened => exact settle.opened opened
  | closed closed => exact settle.closed closed keeps.spares
  | finalized ran =>
      exact finalizeEach_preserves (fun _ _ _ effect before => before.finalized effect) ran settle
  | reserved valid isSwept reviewMem sameCandidate owner effect =>
      have sweptSettle := settle.closed isSwept keeps.spares
      cases effect with
      | existing operation operationMem operationCandidate group =>
          apply sweptSettle.grouped group
          intro mapping added
          rw [isSwept.operations] at operationMem
          have freshKey := added.freshKey
          rw [isSwept.groups] at freshKey
          obtain ⟨kept, keptMem, keptCandidate, pending, spared⟩ := keeps.reserves _ _ _ rfl
            added.requested freshKey operation operationMem operationCandidate
          exact ⟨kept, isSwept.unchanged keptMem fun _ => spared,
            keptCandidate.trans (consistent.plan_candidate operationMem).symm, pending⟩
      | created middle operation added group =>
          rename_i review
          have middleSettle : GroupsSettle middle := by
            intro mapping mappingMem
            rw [added.groups] at mappingMem
            obtain ⟨kept, keptMem, settled⟩ := sweptSettle mapping mappingMem
            exact ⟨kept, added.reviews ▸ keptMem, settled⟩
          apply middleSettle.grouped group
          intro mapping _
          exact ⟨review, added.reviews ▸ reviewMem, sameCandidate, added.pending⟩

/-- In every run whose steps keep groups, every group is committed with its
Candidate Confirmed, or its Candidate is still Pending. -/
theorem spaceGroups_never_stranded
    (run : ConfirmationRun text hasher fromTask episodes (KeepsGroups hasher) store) :
    GroupsSettle store.candidates := by
  induction run with
  | start => exact fun _ mappingMem => absurd mappingMem (Table.not_mem_empty _)
  | step run step keeps ih =>
      exact (performConfirmationStep_effect _ step).settle run.consistent keeps ih

/-! ### A Candidate that opens the Space of its Task -/

section Sample

/-- Encodings by kind, and a digest that pads its input to sixty-four digits. -/
def samplePlanHasher : PlanHasher where
  draftToVec _ := [1]
  submissionToVec _ _ := [2]
  operationToVec _ := [3]
  planToVec _ := [4]
  sha256Hex bytes := String.ofList (List.replicate (64 - bytes.length) '0' ++
    bytes.map fun byte => Char.ofNat (48 + byte.toNat))

def sampleGroupKey (taskId : TaskId) : ProposedSpaceGroupKey :=
  ⟨taskId.uuid⟩

def samplePlanRevision : ContextRevision where
  revisionId := ⟨32⟩
  parentRevisionIds := []
  kind := .decision
  topicKey := none
  problemView := none
  statement := "Retry the upload"
  rationale := "The link drops"
  applicability := ⟨[], [], []⟩
  assumptions := []
  recheckWhen := []
  hints := []
  relations := []
  evidence :=
    [⟨⟨33⟩, .experimentRecord, "Retry the upload", .object [("log", .null)], "It passed", []⟩]

def samplePlanConfirmation : CandidateConfirmation where
  confirmationId := ⟨36⟩
  candidateId := ⟨7⟩
  submissionId := ⟨20⟩
  sourceEpisode := sampleEpisode.ownership
  resultContextId := ⟨31⟩
  resultRevisionId := ⟨32⟩
  primarySpaceId := ⟨30⟩
  relatedSpaceIds := []
  spaceAssociationId := ⟨34⟩
  publicationId := ⟨35⟩
  createdSpaceId := some ⟨30⟩
  edits := ⟨none, none, none, none, none, none, none, none, none, none, none⟩
  finalContentHash := contextRevisionContentHash samplePlanHasher.toContentHasher
    (contextRevisionAsDraft samplePlanRevision)
  causalRefs := ⟨some ⟨40⟩, ⟨41⟩, ⟨42⟩, ⟨43⟩, []⟩

def samplePlanOperation : CandidateConfirmationOperation :=
  ⟨⟨7⟩, 1, 1, .proposedRecommendation ⟨50⟩, [], samplePlanConfirmation.edits⟩

def samplePlan : CandidateConfirmationPlan where
  operation := samplePlanOperation
  operationHash := samplePlanOperation.hash samplePlanHasher
  newSpace := some ⟨⟨30⟩, ⟨⟨37⟩, [],
    ⟨"Uploads", "They fail", "They pass", ["retry"], [], ["green"], []⟩, true⟩⟩
  resultContextId := ⟨31⟩
  resultRevision := samplePlanRevision
  spaceAssociation := ⟨⟨34⟩, ⟨31⟩, ⟨30⟩, [], [], .candidateConfirmation ⟨7⟩⟩
  publication := ⟨⟨35⟩, [], .publish, ⟨32⟩, []⟩
  engineeringReferences := []
  openedConflicts := []
  confirmation := samplePlanConfirmation
  eventIds := ⟨some ⟨40⟩, ⟨41⟩, ⟨42⟩, ⟨43⟩, [], [], ⟨44⟩⟩

def sampleRequest : ConfirmationRequest :=
  ⟨sampleLocator, ⟨3⟩, ⟨1⟩, samplePlan, some (sampleGroupKey ⟨3⟩)⟩

def sampleFinalize : CandidateConfirmationFinalize :=
  ⟨⟨7⟩, samplePlan.operationHash, ⟨36⟩, ⟨31⟩, .human⟩

def sampleDiscard : CandidateReviewDiscard :=
  ⟨sampleLocator, ⟨3⟩, ⟨1⟩, ⟨7⟩, 1, "no longer needed", .human⟩

abbrev performSample (store : ConfirmationStore) (step : ConfirmationStep) : ConfirmationStore :=
  performConfirmationStep sampleIntentText samplePlanHasher sampleGroupKey sampleEpisodes store step

def openingStep : ConfirmationStep :=
  .lineage (.openOrCreate ⟨⟨1⟩, ⟨2⟩, ⟨3⟩, ⟨1⟩⟩ sampleLocator ⟨3⟩ (sampleWorkingIntent "review") [])

def preparingStep : ConfirmationStep :=
  .build (.prepare (sampleBuildIds 10 20) ⟨1⟩ [sampleItem] [])

def recordingStep : ConfirmationStep :=
  .build (.record ⟨10⟩ ⟨20⟩ .created (some ⟨7⟩) (some ⟨8⟩) none 1000)

def analysingStep : ConfirmationStep :=
  .replaceAnalysis ⟨7⟩ .complete (.ok ())

/-- The Candidate of a closed Episode is Pending. -/
def pendingStore : ConfirmationStore :=
  performSample (performSample (performSample .empty openingStep) preparingStep) recordingStep

def analysedStore : ConfirmationStore :=
  performSample pendingStore analysingStep

def reservedStore : ConfirmationStore :=
  performSample analysedStore (.reserve sampleRequest 1100)

def gitStore : ConfirmationStore :=
  performSample reservedStore (.commitToGit [⟨7⟩])

def confirmedStore : ConfirmationStore :=
  performSample gitStore (.finalize [sampleFinalize])

abbrev SampleRun (allowed : ConfirmationStore → ConfirmationStep → Prop)
    (store : ConfirmationStore) : Prop :=
  ConfirmationRun sampleIntentText samplePlanHasher sampleGroupKey sampleEpisodes allowed store

/-- Conditions on what is reserved allow the steps up to the first reservation. -/
theorem reservedStore_run {allowed : ConfirmationStore → ConfirmationStep → Prop}
    (early : ∀ store step, store.candidates.candidateConfirmationOperation.rows = [] →
      store.candidates.proposedSpaceGroup.rows = [] → store.git = [] → allowed store step) :
    SampleRun allowed reservedStore := by
  have earlyRows : ∀ store step, store.candidates.candidateConfirmationOperation.rows = [] ∧
      store.candidates.proposedSpaceGroup.rows = [] ∧ store.git = [] → allowed store step :=
    fun store step unreserved => early store step unreserved.1 unreserved.2.1 unreserved.2.2
  have run : SampleRun allowed pendingStore := by
    unfold pendingStore
    exact .step (.step (.step .start openingStep (earlyRows _ _ (by decide)))
      preparingStep (earlyRows _ _ (by decide))) recordingStep
      (earlyRows _ _ (by decide))
  unfold reservedStore analysedStore
  exact .step (.step run analysingStep (earlyRows _ _ (by decide)))
    (.reserve sampleRequest 1100) (earlyRows _ _ (by decide))

theorem KeepsGroups.of_none {step : ConfirmationStep}
    (operationsEq : store.candidates.candidateConfirmationOperation.rows = [])
    (groupsEq : store.candidates.proposedSpaceGroup.rows = []) :
    KeepsGroups hasher store step where
  spares mapping mappingMem := by
    rw [Table.mem_def, groupsEq] at mappingMem
    exact absurd mappingMem List.not_mem_nil
  reserves _ _ _ _ _ _ operation operationMem := by
    rw [Table.mem_def, operationsEq] at operationMem
    exact absurd operationMem List.not_mem_nil

/-- A group is reserved, its plan written to Git, and its Candidate confirmed. -/
theorem spaceGroups_never_stranded_sample :
    (confirmedStore.candidates.proposedSpaceGroup.rows.map (·.status) = [.committed]) ∧
      GroupsSettle confirmedStore.candidates := by
  refine ⟨by decide, ?_⟩
  have run : SampleRun (KeepsGroups samplePlanHasher) confirmedStore := by
    unfold confirmedStore gitStore
    refine .step (.step (reservedStore_run ?_) (.commitToGit [⟨7⟩]) ?_)
      (.finalize [sampleFinalize]) ?_
    · exact fun store step operationsEq groupsEq _ => .of_none operationsEq groupsEq
    · exact ⟨fun _ _ _ _ _ _ => id, fun _ _ _ isReserve => nomatch isReserve⟩
    · exact ⟨fun _ _ _ _ _ _ => id, fun _ _ _ isReserve => nomatch isReserve⟩
  exact spaceGroups_never_stranded run

/-- Discarding the Candidate that reserved the group strands it. -/
theorem spaceGroups_stranded_by_discard :
    ∃ store, ConfirmationRun sampleIntentText samplePlanHasher sampleGroupKey sampleEpisodes
        (fun _ _ => True) store ∧ ¬ GroupsSettle store.candidates :=
  ⟨performSample reservedStore (.discard [sampleDiscard] 1200 1200),
    .step (reservedStore_run fun _ _ _ _ _ => trivial) (.discard [sampleDiscard] 1200 1200) trivial,
    by decide⟩

end Sample

end SharedContext
