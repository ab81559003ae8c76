import SharedContext.TaskRuntime.LineageRuns

/-!
# Retrying a continue

A client that lost the response of `continueWorkingIntent` repeats the call.
The repeated call converges while the parent is the Head or the Head is already
its replacement; a call that forked a Task forks another one.
-/

namespace SharedContext

open Lineages

variable {text : IntentText}

/-- Repeating the call on the database it left behind, with any new
identifiers, creates no revision and no Task and returns the same revision. -/
def RetryConverges (text : IntentText) (after : RuntimeDatabase) (retryIds : NewIds)
    (locator : ExternalSessionLocator) (parentRevisionId : TaskIntentRevisionId)
    (workingIntent : WorkingIntentSnapshot) (revision : TaskIntentRevision) : Prop :=
  ∃ retried outcome,
    continueWorkingIntent text after retryIds locator parentRevisionId workingIntent =
      .ok (retried, outcome) ∧
    outcome.revision = revision ∧
    retried.lineages.taskIntentRevision = after.lineages.taskIntentRevision ∧
    retried.lineages.taskSession = after.lineages.taskSession

/-- The parent is the Head of its Task, or the Head is its child with the
meaning of the request. -/
def ParentIsCurrent (text : IntentText) (tables : Lineages)
    (parentRevisionId : TaskIntentRevisionId) (workingIntent : WorkingIntentSnapshot) : Prop :=
  ∀ owner, readIntentRevisionOwner tables parentRevisionId = some owner →
    ∀ head, readIntentRevision text tables owner.headRevision = .ok head →
      owner.headRevision = parentRevisionId ∨
        (head.parentRevisionId = some parentRevisionId ∧
          head.semanticHash = workingIntent.semanticHash text)

/-! ### Selecting the Task that is already active -/

theorem compareAndSwitch_self {tables : Lineages} {external : ExternalSessionRow}
    (externalMem : external ∈ tables.externalSession) :
    compareAndSwitch tables external.externalSessionId external.activeTaskId
      external.activeTaskSessionId external.activeTaskId = .ok tables := by
  let matched (row : ExternalSessionRow) : Bool :=
    row.externalSessionId = external.externalSessionId ∧
      row.activeTaskId = external.activeTaskId
  have counted : tables.externalSession.rows.countP matched = 1 := by
    apply Table.countP_eq_one externalMem
    · simp [matched]
    · intro other holds
      exact (of_decide_eq_true holds).1
  have unchanged : tables.externalSession.updateWhere matched
      (fun row => { row with activeTaskSessionId := external.activeTaskSessionId,
                             activeTaskId := external.activeTaskId })
      (fun _ => rfl) = tables.externalSession := by
    apply Table.ext
    change tables.externalSession.rows.map _ = tables.externalSession.rows
    conv => rhs; rw [← List.map_id tables.externalSession.rows]
    apply List.map_congr_left
    intro row rowMem
    split
    · rename_i holds
      have rowEq := Table.eq_of_key rowMem externalMem (of_decide_eq_true holds).1
      rw [rowEq]
      rfl
    · rfl
  simp only [compareAndSwitch, Result.bind_eq_ok, Result.exists_unit, Result.require_eq_ok,
    Result.pure_eq_ok]
  exact ⟨counted, congrArg (fun externalSession => { tables with externalSession }) unchanged⟩

theorem compareAndSwitch_identity {tables after : Lineages} {locator : ExternalSessionLocator}
    {external : ExternalSessionRow} {taskSessionId : TaskSessionId} {taskId : TaskId}
    (found : readExternalIdentity tables locator = some external)
    (switched : compareAndSwitch tables external.externalSessionId external.activeTaskId
      taskSessionId taskId = .ok after) :
    readExternalIdentity after locator =
      some { external with activeTaskSessionId := taskSessionId, activeTaskId := taskId } := by
  simp only [compareAndSwitch, Result.bind_eq_ok, Result.exists_unit,
    Result.pure_eq_ok] at switched
  obtain ⟨_, rfl⟩ := switched
  change (tables.externalSession.rows.map _).find? _ = _
  rw [List.find?_map]
  have sameLocator : ((fun row : ExternalSessionRow => decide (row.locator = locator)) ∘
      fun row : ExternalSessionRow =>
        if decide (row.externalSessionId = external.externalSessionId ∧
          row.activeTaskId = external.activeTaskId) then
          { row with activeTaskSessionId := taskSessionId, activeTaskId := taskId }
        else row) = fun row => decide (row.locator = locator) := by
    funext row
    simp only [Function.comp_apply]
    split <;> rfl
  rw [sameLocator]
  change (readExternalIdentity tables locator).map _ = _
  rw [found]
  simp

/-! ### A retry that converges -/

theorem continueWorkingIntent_converged {db : RuntimeDatabase} {ids : NewIds}
    {locator : ExternalSessionLocator} {parentRevisionId : TaskIntentRevisionId}
    {workingIntent : WorkingIntentSnapshot} {external : ExternalSessionRow}
    {owner : IntentRevisionOwner} {head : TaskIntentRevision} {snapshot : TaskSessionSnapshot}
    (locatorValid : locator.validate = .ok ())
    (intentValid : workingIntent.validate text = .ok ())
    (externalRead : readExternalIdentity db.lineages locator = some external)
    (ownerRead : readIntentRevisionOwner db.lineages parentRevisionId = some owner)
    (sameExternal : owner.externalSession = external.externalSessionId)
    (sessionActive : external.activeTaskSessionId = owner.taskSession)
    (taskActive : external.activeTaskId = owner.task)
    (headRead : readIntentRevision text db.lineages owner.headRevision = .ok head)
    (converges : owner.headRevision = parentRevisionId ∨
      head.parentRevisionId = some parentRevisionId)
    (sameHash : head.semanticHash = workingIntent.semanticHash text)
    (shown : requireSnapshot text db owner.taskSession = .ok snapshot) :
    continueWorkingIntent text db ids locator parentRevisionId workingIntent =
      .ok (db, ⟨snapshot, head, .alreadyCurrent, false⟩) := by
  have placed : continueLineage text db ids locator external.externalSessionId owner head
      parentRevisionId workingIntent (workingIntent.semanticHash text) =
      .ok ⟨db, owner.taskSession, owner.task, head, .alreadyCurrent⟩ := by
    unfold continueLineage
    by_cases isHead : owner.headRevision = parentRevisionId
    · rw [if_pos isHead, if_pos sameHash]
      rfl
    · rw [if_neg isHead, if_pos ⟨converges.resolve_left isHead, sameHash⟩]
      rfl
  have switched : compareAndSwitch db.lineages external.externalSessionId external.activeTaskId
      owner.taskSession owner.task = .ok db.lineages := by
    have self := compareAndSwitch_self (readExternalIdentity_some externalRead).1
    rw [sessionActive, taskActive] at self
    rw [taskActive]
    exact self
  have hashed : workingIntent.canonicalSemanticHash text =
      .ok (workingIntent.semanticHash text) :=
    (WorkingIntentSnapshot.canonicalSemanticHash_eq_ok text).mpr ⟨intentValid, rfl⟩
  simp only [continueWorkingIntent, Result.bind_eq_ok, Result.exists_unit,
    requireExternalIdentity_eq_ok]
  refine ⟨locatorValid, intentValid, _, hashed, external, externalRead, ?_⟩
  rw [ownerRead]
  simp only [Result.bind_eq_ok, Result.exists_unit, Result.require_eq_ok]
  refine ⟨sameExternal, head, headRead, _, placed, db.lineages, switched, snapshot, shown, ?_⟩
  simp [taskActive]

theorem retryConverges_of_current {db after : RuntimeDatabase} {ids retryIds : NewIds}
    {locator : ExternalSessionLocator} {parentRevisionId : TaskIntentRevisionId}
    {workingIntent : WorkingIntentSnapshot} {outcome : ContinueWorkingIntentOutcome}
    (ran : continueWorkingIntent text db ids locator parentRevisionId workingIntent =
      .ok (after, outcome))
    (current : ParentIsCurrent text db.lineages parentRevisionId workingIntent) :
    RetryConverges text after retryIds locator parentRevisionId workingIntent
      outcome.revision := by
  obtain ⟨locatorValid, intentValid, external, owner, head, lineage, externalRead, ownerRead,
    sameExternal, headRead, placed, switched, afterEq, shown, outcomeEq⟩ :=
    continueWorkingIntent_ok ran
  have isCurrent := current owner ownerRead head headRead
  obtain ⟨parentRow, parentMem, parentId, task, taskMem, sameSession, rfl⟩ :=
    readIntentRevisionOwner_some ownerRead
  obtain ⟨headRow, headMem, headEq, headId, headValid⟩ := readIntentRevision_ok headRead
  have switch := compareAndSwitch_ok switched
  cases continueLineage_ok placed with
  | alreadyCurrent converges sameHash =>
      have identity := compareAndSwitch_identity externalRead switched
      refine ⟨after, _, continueWorkingIntent_converged locatorValid intentValid
        identity ?_ sameExternal rfl rfl ?_ converges sameHash shown, ?_, rfl, rfl⟩
      · rw [← ownerRead, readIntentRevisionOwner, readIntentRevisionOwner,
          switch.taskIntentRevision, switch.taskSession]
      · rw [← headRead, readIntentRevision, readIntentRevision, switch.taskIntentRevision]
      · rw [outcomeEq]
  | @created tables revision isHead appendRan =>
      obtain ⟨appended, revisionEq, fresh⟩ :=
        appendRevisionInTransaction_ok appendRan taskMem headId
      have located : readExternalIdentity tables locator = some external := by
        rw [readExternalIdentity, appended.external]
        exact externalRead
      have identity := compareAndSwitch_identity located switched
      -- The parent keeps its row, and its Task now has the new revision as Head.
      have rowAfter := switch.grows.revisions _ (appended.grows.revisions _ parentMem)
      have taskAfter : { task with currentIntentRevisionId := revision.revisionId } ∈
          after.lineages.taskSession := by
        rw [switch.taskSession]
        exact (appended.sessions _).mpr (Or.inr rfl)
      have ownerAfter := readIntentRevisionOwner_of_mem rowAfter taskAfter sameSession
      rw [parentId] at ownerAfter
      obtain ⟨newRow, newMem, _, newEq⟩ := appended.revision_mem
      have distinct : head.revisionId ≠ ids.revisionId := by
        rw [← headEq]
        exact fresh headRow headMem
      have newIntent : revision.workingIntent = workingIntent := by rw [revisionEq]
      have newHash : revision.semanticHash = workingIntent.semanticHash text := by
        rw [revisionEq]
      have notSelf : revision.parentRevisionId ≠ some revision.revisionId := by
        rw [revisionEq]
        intro isSelf
        exact distinct (Option.some.inj isSelf)
      have newValid : revision.validate text = .ok () := by
        rw [← newIntent] at intentValid newHash
        exact TaskIntentRevision.validate_of text intentValid newHash notSelf
      have headAfter : readIntentRevision text after.lineages revision.revisionId =
          .ok revision := by
        rw [← newEq] at newValid ⊢
        exact readIntentRevision_of_mem (switch.grows.revisions _ newMem) newValid
      have newParent : revision.parentRevisionId = some parentRevisionId := by
        rw [appended.parent]
        exact congrArg some isHead
      refine ⟨after, _, continueWorkingIntent_converged locatorValid intentValid identity
        ownerAfter sameExternal rfl rfl headAfter (Or.inr newParent) newHash shown, ?_, rfl, rfl⟩
      rw [outcomeEq]
  | forked superseded diverges _ =>
      rcases isCurrent with isHead | converges
      · exact absurd isHead superseded
      · exact absurd converges diverges

/-! ### A retry that does not -/

theorem not_retryConverges_of_fork {db after : RuntimeDatabase} {ids retryIds : NewIds}
    {locator : ExternalSessionLocator} {parentRevisionId : TaskIntentRevisionId}
    {workingIntent : WorkingIntentSnapshot} {outcome : ContinueWorkingIntentOutcome}
    {owner : IntentRevisionOwner} {head : TaskIntentRevision}
    (ran : continueWorkingIntent text db ids locator parentRevisionId workingIntent =
      .ok (after, outcome))
    (ownerRead : readIntentRevisionOwner db.lineages parentRevisionId = some owner)
    (headRead : readIntentRevision text db.lineages owner.headRevision = .ok head)
    (superseded : owner.headRevision ≠ parentRevisionId)
    (diverges : ¬ (head.parentRevisionId = some parentRevisionId ∧
      head.semanticHash = workingIntent.semanticHash text)) :
    ¬ RetryConverges text after retryIds locator parentRevisionId workingIntent
      outcome.revision := by
  rintro ⟨retried, retriedOutcome, retry, _, sameRevisions, _⟩
  -- The first call added a Task and left the lineage of the parent as it was.
  obtain ⟨_, _, external, firstOwner, firstHead, lineage, _, firstOwnerRead, _, firstHeadRead,
    placed, switched, _, _, _⟩ := continueWorkingIntent_ok ran
  rw [ownerRead] at firstOwnerRead
  cases firstOwnerRead
  rw [headRead] at firstHeadRead
  cases firstHeadRead
  obtain ⟨parentRow, parentMem, rfl, task, taskMem, sameSession, rfl⟩ :=
    readIntentRevisionOwner_some ownerRead
  obtain ⟨headRow, headMem, rfl, headId, headValid⟩ := readIntentRevision_ok headRead
  have switch := compareAndSwitch_ok switched
  have unchanged : readIntentRevisionOwner after.lineages parentRow.revisionId =
        readIntentRevisionOwner db.lineages parentRow.revisionId ∧
      readIntentRevision text after.lineages headRow.revisionId = .ok headRow.revision := by
    cases continueLineage_ok placed with
    | alreadyCurrent converges sameHash =>
        exact absurd ⟨converges.resolve_left superseded, sameHash⟩ diverges
    | created isHead _ => exact absurd isHead superseded
    | forked _ _ inserted =>
        have added := insertTask_ok inserted rfl
        have grows := added.grows.trans switch.grows
        have taskAfter : task ∈ after.lineages.taskSession := by
          rw [switch.taskSession]
          exact added.mem_taskSession.mpr (Or.inl taskMem)
        refine ⟨?_, readIntentRevision_of_mem (grows.revisions _ headMem) headValid⟩
        rw [ownerRead]
        exact readIntentRevisionOwner_of_mem (grows.revisions _ parentMem) taskAfter sameSession
  -- So the second call takes the same branch and adds another revision.
  obtain ⟨_, _, _, secondOwner, secondHead, secondLineage, _, secondOwnerRead, _, secondHeadRead,
    secondPlaced, secondSwitched, _, _, _⟩ := continueWorkingIntent_ok retry
  rw [unchanged.1, ownerRead] at secondOwnerRead
  cases secondOwnerRead
  have headIs : headRow.revisionId = task.currentIntentRevisionId := headId
  rw [← headIs, unchanged.2] at secondHeadRead
  cases secondHeadRead
  have secondSwitch := compareAndSwitch_ok secondSwitched
  cases continueLineage_ok secondPlaced with
  | alreadyCurrent converges sameHash =>
      exact absurd ⟨converges.resolve_left superseded, sameHash⟩ diverges
  | created isHead _ => exact absurd isHead superseded
  | forked _ _ inserted =>
      have added := insertTask_ok inserted rfl
      rw [secondSwitch.taskIntentRevision] at sameRevisions
      have rowsEq := added.revisions
      rw [sameRevisions] at rowsEq
      have lengthEq := congrArg List.length rowsEq
      rw [List.length_append, List.length_singleton] at lengthEq
      omega

theorem retryConverges_iff {db after : RuntimeDatabase}
    {ids : NewIds} {locator : ExternalSessionLocator}
    {parentRevisionId : TaskIntentRevisionId} {workingIntent : WorkingIntentSnapshot}
    {outcome : ContinueWorkingIntentOutcome}
    (ran : continueWorkingIntent text db ids locator parentRevisionId workingIntent =
      .ok (after, outcome)) (retryIds : NewIds) :
    RetryConverges text after retryIds locator parentRevisionId workingIntent
        outcome.revision ↔
      ParentIsCurrent text db.lineages parentRevisionId workingIntent := by
  constructor
  · intro converges owner ownerRead head headRead
    by_contra notCurrent
    rw [not_or] at notCurrent
    exact not_retryConverges_of_fork ran ownerRead headRead notCurrent.1 notCurrent.2 converges
  · exact retryConverges_of_current ran

/-- In every run, after every successful `continueWorkingIntent` and for
whatever identifiers a repeated call would create, the call is safe to retry
exactly when its parent was the Head of its Task or the Head was the child of
the parent with the meaning of the request. -/
theorem continue_retry_converges_iff {log : List Exchange} {db : RuntimeDatabase}
    (run : LineageRun text log db) :
    ∀ exchange ∈ log, ∀ ids locator parentRevisionId workingIntent outcome,
      exchange.call = .continueWorkingIntent ids locator parentRevisionId workingIntent →
      exchange.response = .ok (.continued outcome) → ∀ retryIds,
        (RetryConverges text exchange.after retryIds locator parentRevisionId workingIntent
            outcome.revision ↔
          ParentIsCurrent text exchange.before.lineages parentRevisionId workingIntent) := by
  intro exchange exchangeMem ids locator parentRevisionId workingIntent outcome callEq responseEq
    retryIds
  rcases run.exchange_cases exchange exchangeMem with committed | refused
  · obtain ⟨answer, answerEq, _, performed⟩ := committed
    rw [responseEq] at answerEq
    cases answerEq
    rw [callEq] at performed
    obtain ⟨⟨after, returned⟩, ran, pairEq⟩ := Result.map_eq_ok.mp performed
    cases pairEq
    exact retryConverges_iff ran retryIds
  · obtain ⟨error, errorEq, _⟩ := refused
    rw [responseEq] at errorEq
    cases errorEq

/-- The answer to the Agent that extended the first lineage. -/
def sampleCreatedOutcome : ContinueWorkingIntentOutcome :=
  ⟨⟨⟨1⟩, ⟨1⟩, sampleLocator,
      [sampleIntentRevision 1 none "review", sampleIntentRevision 2 (some 1) "bar"], []⟩,
    sampleIntentRevision 2 (some 1) "bar", .created, false⟩

/-- The answer to the Agent that forked a Task. -/
def sampleForkedOutcome (number : Nat) : ContinueWorkingIntentOutcome :=
  ⟨⟨⟨.ofNat _ number⟩, ⟨.ofNat _ number⟩, sampleLocator,
      [sampleIntentRevision number none "anchor"], []⟩,
    sampleIntentRevision number none "anchor", .forked, true⟩

def sampleOpened : Exchange :=
  exchangeOf sampleIntentText .empty
    (.openOrCreate (sampleIds 1) sampleLocator ⟨1⟩ (sampleWorkingIntent "review") [])

def sampleCreated : Exchange :=
  exchangeOf sampleIntentText sampleOpened.after
    (.continueWorkingIntent (sampleIds 2) sampleLocator ⟨1⟩ (sampleWorkingIntent "bar"))

def sampleForked : Exchange :=
  exchangeOf sampleIntentText sampleCreated.after
    (.continueWorkingIntent (sampleIds 3) sampleLocator ⟨1⟩ (sampleWorkingIntent "anchor"))

theorem sampleLog_eq : sampleLog = [sampleOpened, sampleCreated, sampleForked] :=
  rfl

theorem sampleCreated_call : sampleCreated.call =
    .continueWorkingIntent (sampleIds 2) sampleLocator ⟨1⟩ (sampleWorkingIntent "bar") := by
  unfold sampleCreated exchangeOf
  split <;> rfl

/-- The Agent that extended the first lineage may repeat its call. -/
theorem continue_retry_converges_sample :
    sampleCreated.response = .ok (.continued sampleCreatedOutcome) ∧
      ∀ retryIds, RetryConverges sampleIntentText sampleCreated.after retryIds sampleLocator ⟨1⟩
        (sampleWorkingIntent "bar") sampleCreatedOutcome.revision := by
  have answered : sampleCreated.response = .ok (.continued sampleCreatedOutcome) := by
    decide
  refine ⟨answered, ?_⟩
  intro retryIds
  have memLog : sampleCreated ∈ sampleLog := by
    rw [sampleLog_eq]
    exact List.mem_cons_of_mem _ List.mem_cons_self
  refine (continue_retry_converges_iff sampleLog_run sampleCreated memLog _ _ _ _ _
    sampleCreated_call answered retryIds).mpr ?_
  intro owner ownerRead head headRead
  left
  have isHead : (readIntentRevisionOwner sampleCreated.before.lineages ⟨1⟩).all
      (fun owner => owner.headRevision = ⟨1⟩) = true := by
    decide
  rw [ownerRead] at isHead
  exact of_decide_eq_true isHead

/-- The Agent that forked a Task and lost the response repeats its call, and a
second Task is forked. -/
theorem continue_forks_again :
    LineageRun sampleIntentText sampleLog sampleDatabase ∧ sampleForked ∈ sampleLog ∧
      sampleForked.response = .ok (.continued (sampleForkedOutcome 3)) ∧
      (continueWorkingIntent sampleIntentText sampleForked.after (sampleIds 4) sampleLocator ⟨1⟩
        (sampleWorkingIntent "anchor")).map (·.2) = .ok (sampleForkedOutcome 4) ∧
      ¬ RetryConverges sampleIntentText sampleForked.after (sampleIds 4) sampleLocator ⟨1⟩
        (sampleWorkingIntent "anchor") (sampleForkedOutcome 3).revision := by
  have again : (continueWorkingIntent sampleIntentText sampleForked.after (sampleIds 4)
      sampleLocator ⟨1⟩ (sampleWorkingIntent "anchor")).map (·.2) =
        .ok (sampleForkedOutcome 4) := by
    decide
  refine ⟨sampleLog_run, ?_, by decide, again, ?_⟩
  · rw [sampleLog_eq]
    exact List.mem_cons_of_mem _ (List.mem_cons_of_mem _ List.mem_cons_self)
  · rintro ⟨retried, outcome, retry, sameRevision, _, _⟩
    rw [retry] at again
    have outcomeEq : outcome = sampleForkedOutcome 4 := Except.ok.inj again
    rw [outcomeEq] at sameRevision
    exact absurd (congrArg (fun revision => revision.revisionId.uuid.toNat) sameRevision)
      (by decide)

end SharedContext
