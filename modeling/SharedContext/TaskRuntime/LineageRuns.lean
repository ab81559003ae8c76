import SharedContext.TaskRuntime.LineageOperations

/-!
# Runs of the lineage operations

Clients of the runtime store interleave their calls; each call is one immediate
transaction, so an interleaving of any number of clients is a list of calls.  A
call is answered, or refused with the database as it was.
-/

namespace SharedContext

open Lineages

variable {text : IntentText}

/-! ### One operation -/

/-- What a committed operation owes the lineages: the invariant, every earlier
revision and Task, and a row for every revision it reports. -/
structure Advances (before after : Lineages) (reported : List TaskIntentRevision) : Prop where
  consistent : after.Consistent
  grows : before.Grows after
  reported : ∀ revision ∈ reported, ∃ row ∈ after.taskIntentRevision, row.revision = revision

/-- The revision is the Head of a retained Task and means the given intent. -/
def IsHeadOf (tables : Lineages) (revision : TaskIntentRevision) (semanticHash : String) : Prop :=
  (∃ task ∈ tables.taskSession, task.currentIntentRevisionId = revision.revisionId) ∧
    revision.semanticHash = semanticHash

theorem insertExternalSession_ok {tables after : Lineages}
    {externalSessionId : ExternalSessionId} {locator : ExternalSessionLocator}
    {task : TaskSessionSnapshot}
    (inserted : insertExternalSession tables externalSessionId locator task = .ok after) :
    after.taskSession = tables.taskSession ∧
      after.taskIntentRevision = tables.taskIntentRevision ∧
      after.externalSession.rows = tables.externalSession.rows ++
        [⟨externalSessionId, locator, task.taskSessionId, task.taskId⟩] := by
  simp only [insertExternalSession, Result.bind_eq_ok, Result.exists_unit] at inserted
  obtain ⟨_, inserted⟩ := inserted
  split at inserted
  case h_1 externalSession added =>
    cases inserted
    exact ⟨rfl, rfl, (Table.insert_eq_some.mp added).2⟩
  case h_2 => cases inserted

theorem openOrCreate_ok {db after : RuntimeDatabase} {ids : NewIds}
    {locator : ExternalSessionLocator} {taskId : TaskId}
    {initialIntent : WorkingIntentSnapshot} {signals : List TaskSignal}
    {outcome : OpenSessionOutcome}
    (ran : openOrCreate text db ids locator taskId initialIntent signals = .ok (after, outcome))
    (consistent : db.lineages.Consistent) :
    Advances db.lineages after.lineages outcome.snapshot.intentRevisions := by
  simp only [openOrCreate, Result.bind_eq_ok, Result.exists_unit] at ran
  obtain ⟨_, _, _, _, normalized, _, ran⟩ := ran
  split at ran
  case h_1 taskSessionId found =>
    simp only [Result.bind_eq_ok] at ran
    obtain ⟨snapshot, read, ran⟩ := ran
    split at ran
    case h_1 => cases ran
    case h_2 current isCurrent =>
      simp only [Result.bind_eq_ok, Result.exists_unit, Result.pure_eq_ok] at ran
      obtain ⟨_, made⟩ := ran
      cases made
      exact ⟨consistent, Grows.refl _, fun revision => requireSnapshot_mem read⟩
  case h_2 =>
    simp only [Result.bind_eq_ok, Result.pure_eq_ok, Prod.exists] at ran
    obtain ⟨drained, backfilled, prompts, snapshot, initial, tables, externalAdded, inserted,
      taskInserted, persisted, read, made⟩ := ran
    cases made
    have snapshotEq := fromInitial_ok initial
    subst snapshotEq
    obtain ⟨sessionsEq, revisionsEq, externalEq⟩ := insertExternalSession_ok externalAdded
    rw [withBackfilledPrompts_lineages prompts] at sessionsEq revisionsEq externalEq
    have added := insertTask_ok taskInserted rfl
    have opened : db.lineages.Grows tables := by
      refine ⟨?_, ?_⟩
      · rw [revisionsEq]
        exact fun _ rowMem => rowMem
      · intro _ _ _ retained
        rw [Retains, sessionsEq]
        exact retained
    have chained : tables.Chained := by
      have rowsEq : ∀ other, tables.revisionRows other = db.lineages.revisionRows other := by
        intro other
        rw [revisionRows, revisionsEq]
        rfl
      refine ⟨?_, ?_⟩
      · rw [revisionsEq, sessionsEq]
        exact consistent.chained.owned
      · intro task taskMem
        rw [sessionsEq] at taskMem
        have taskChained := consistent.chained.tasks task taskMem
        exact ⟨by rw [rowsEq]; exact taskChained.ordinals,
          by rw [rowsEq]; exact taskChained.chain, by rw [rowsEq]; exact taskChained.head⟩
    refine ⟨⟨added.chained chained, ?_, ?_⟩, opened.trans added.grows,
      fun revision => requireSnapshot_mem read⟩
    · intro external externalMem
      rw [added.external, Table.mem_def, externalEq, List.mem_append] at externalMem
      rcases externalMem with externalMem | isNew
      · exact added.grows.retains _ _ _ (opened.retains _ _ _
          (consistent.selected.active external externalMem))
      · cases List.mem_singleton.mp isNew
        exact added.retains
    · intro task taskMem
      rw [added.external]
      rcases added.mem_taskSession.mp taskMem with taskMem | rfl
      · rw [sessionsEq] at taskMem
        obtain ⟨external, externalMem, sameExternal⟩ := consistent.selected.sessions task taskMem
        refine ⟨external, ?_, sameExternal⟩
        rw [Table.mem_def, externalEq]
        exact List.mem_append_left _ externalMem
      · refine ⟨⟨ids.externalSessionId, locator, ids.taskSessionId, taskId⟩, ?_, rfl⟩
        rw [Table.mem_def, externalEq]
        exact List.mem_append_right _ (List.mem_singleton_self _)

theorem startNewTask_ok {db after : RuntimeDatabase} {ids : NewIds}
    {locator : ExternalSessionLocator} {expectedActiveTaskId : TaskId}
    {initialIntent : WorkingIntentSnapshot} {signals : List TaskSignal}
    {outcome : StartNewTaskOutcome}
    (ran : startNewTask text db ids locator expectedActiveTaskId initialIntent signals =
      .ok (after, outcome))
    (consistent : db.lineages.Consistent) :
    Advances db.lineages after.lineages outcome.snapshot.intentRevisions := by
  simp only [startNewTask, Result.bind_eq_ok, Result.exists_unit, Result.pure_eq_ok,
    Prod.exists, requireExternalIdentity_eq_ok] at ran
  obtain ⟨_, _, normalized, _, external, externalRead, _, drained, backfilled, prompts, snapshot,
    initial, ordinal, _, inserted, taskInserted, tables, switched, persisted, read, made⟩ := ran
  cases made
  have snapshotEq := fromInitial_ok initial
  subst snapshotEq
  have added := insertTask_ok taskInserted rfl
  rw [withBackfilledPrompts_lineages prompts] at added
  have owner := (readExternalIdentity_some externalRead).1
  have addedConsistent : inserted.lineages.Consistent :=
    ⟨added.chained consistent.chained,
      added.selected consistent.selected ⟨external, owner, rfl⟩⟩
  have switch := compareAndSwitch_ok switched
  exact ⟨switch.consistent addedConsistent added.retains, added.grows.trans switch.grows,
    fun revision => requireSnapshot_mem read⟩

theorem findTaskInExternalSession_some {tables : Lineages}
    {externalSessionId : ExternalSessionId} {taskId : TaskId} {taskSessionId : TaskSessionId}
    (found : findTaskInExternalSession tables externalSessionId taskId = some taskSessionId) :
    tables.Retains externalSessionId taskSessionId taskId := by
  obtain ⟨task, taskFound, sessionEq⟩ := Option.map_eq_some_iff.mp found
  have identity := of_decide_eq_true (List.find?_some
    (p := fun row : TaskSessionRow =>
      decide (row.externalSessionId = externalSessionId ∧ row.taskId = taskId)) taskFound)
  exact ⟨task, List.mem_of_find?_eq_some taskFound, identity.1, sessionEq, identity.2⟩

theorem switchActiveTask_ok {db after : RuntimeDatabase} {locator : ExternalSessionLocator}
    {expectedActiveTaskId targetTaskId : TaskId} {outcome : SwitchActiveTaskOutcome}
    (ran : switchActiveTask text db locator expectedActiveTaskId targetTaskId =
      .ok (after, outcome))
    (consistent : db.lineages.Consistent) :
    Advances db.lineages after.lineages outcome.snapshot.intentRevisions := by
  simp only [switchActiveTask, Result.bind_eq_ok, Result.exists_unit] at ran
  obtain ⟨_, external, _, _, ran⟩ := ran
  split at ran
  case h_1 => cases ran
  case h_2 targetTaskSessionId found =>
    simp only [Result.bind_eq_ok, Result.pure_eq_ok] at ran
    obtain ⟨tables, switched, snapshot, read, made⟩ := ran
    cases made
    split at switched
    · have switch := compareAndSwitch_ok switched
      exact ⟨switch.consistent consistent (findTaskInExternalSession_some found), switch.grows,
        fun revision => requireSnapshot_mem read⟩
    · cases switched
      exact ⟨consistent, Grows.refl _, fun revision => requireSnapshot_mem read⟩

theorem appendIntentRevision_ok {db after : RuntimeDatabase} {ids : NewIds}
    {taskSessionId : TaskSessionId} {parentRevisionId : TaskIntentRevisionId}
    {workingIntent : WorkingIntentSnapshot} {outcome : AppendIntentRevisionOutcome}
    (ran : appendIntentRevision text db ids taskSessionId parentRevisionId workingIntent =
      .ok (after, outcome))
    (consistent : db.lineages.Consistent) :
    Advances db.lineages after.lineages [outcome.revision] ∧
      (outcome.status = .alreadyCurrent →
        IsHeadOf after.lineages outcome.revision (workingIntent.semanticHash text)) := by
  simp only [appendIntentRevision, Result.bind_eq_ok, Result.exists_unit,
    WorkingIntentSnapshot.canonicalSemanticHash_eq_ok] at ran
  obtain ⟨_, _, ⟨_, rfl⟩, ran⟩ := ran
  split at ran
  case h_1 => cases ran
  case h_2 taskId currentRevisionId found =>
    obtain ⟨task, taskMem, rfl, rfl⟩ := readActiveTaskHead_some found
    simp only [Result.bind_eq_ok] at ran
    obtain ⟨current, currentRead, ran⟩ := ran
    obtain ⟨row, rowMem, rowEq, currentId, _⟩ := readIntentRevision_ok currentRead
    have unchanged : Advances db.lineages db.lineages [current] := by
      refine ⟨consistent, Grows.refl _, ?_⟩
      intro revision revisionMem
      cases List.mem_singleton.mp revisionMem
      exact ⟨row, rowMem, rowEq⟩
    split at ran
    · simp only [Result.bind_eq_ok, Result.exists_unit, Result.require_eq_ok,
        Result.pure_eq_ok] at ran
      obtain ⟨⟨_, sameHash⟩, made⟩ := ran
      cases made
      exact ⟨unchanged, fun _ => ⟨⟨task, taskMem, currentId.symm⟩, sameHash⟩⟩
    · split at ran
      · rename_i sameHash
        cases ran
        exact ⟨unchanged, fun _ => ⟨⟨task, taskMem, currentId.symm⟩, sameHash⟩⟩
      · simp only [Result.bind_eq_ok, Result.pure_eq_ok, Prod.exists] at ran
        obtain ⟨tables, revision, appendRan, made⟩ := ran
        cases made
        obtain ⟨appended, _, _⟩ := appendRevisionInTransaction_ok appendRan taskMem currentId
        refine ⟨⟨⟨appended.chained consistent.chained, appended.selected consistent.selected⟩,
          appended.grows, ?_⟩, fun impossible => absurd impossible (by simp)⟩
        intro other otherMem
        cases List.mem_singleton.mp otherMem
        obtain ⟨newRow, newMem, _, newEq⟩ := appended.revision_mem
        exact ⟨newRow, newMem, newEq⟩

/-! ### Continuing a lineage -/

/-- The three ways a continued Working Intent is placed. -/
inductive Continued (text : IntentText) (db : RuntimeDatabase) (ids : NewIds)
    (locator : ExternalSessionLocator) (externalSessionId : ExternalSessionId)
    (owner : IntentRevisionOwner) (head : TaskIntentRevision)
    (parentRevisionId : TaskIntentRevisionId) (workingIntent : WorkingIntentSnapshot)
    (semanticHash : String) : ContinuedLineage → Prop
  | alreadyCurrent
      (converges : owner.headRevision = parentRevisionId ∨
        head.parentRevisionId = some parentRevisionId)
      (sameHash : head.semanticHash = semanticHash) :
      Continued text db ids locator externalSessionId owner head parentRevisionId workingIntent
        semanticHash ⟨db, owner.taskSession, owner.task, head, .alreadyCurrent⟩
  | created {tables : Lineages} {revision : TaskIntentRevision}
      (isHead : owner.headRevision = parentRevisionId)
      (appended : appendRevisionInTransaction text db.lineages ids.revisionId owner.taskSession
        head workingIntent = .ok (tables, revision)) :
      Continued text db ids locator externalSessionId owner head parentRevisionId workingIntent
        semanticHash
        ⟨{ db with lineages := tables }, owner.taskSession, owner.task, revision, .created⟩
  | forked {ordinal : Nat} {inserted : RuntimeDatabase}
      (superseded : owner.headRevision ≠ parentRevisionId)
      (diverges : ¬ (head.parentRevisionId = some parentRevisionId ∧
        head.semanticHash = semanticHash))
      (added : insertTask text db externalSessionId ordinal
        ⟨ids.taskSessionId, ids.taskId, locator,
          [⟨ids.revisionId, none, workingIntent, workingIntent.semanticHash text⟩], []⟩ =
        .ok inserted) :
      Continued text db ids locator externalSessionId owner head parentRevisionId workingIntent
        semanticHash
        ⟨inserted, ids.taskSessionId, ids.taskId,
          ⟨ids.revisionId, none, workingIntent, workingIntent.semanticHash text⟩, .forked⟩

theorem continueLineage_ok {db : RuntimeDatabase} {ids : NewIds}
    {locator : ExternalSessionLocator} {externalSessionId : ExternalSessionId}
    {owner : IntentRevisionOwner} {head : TaskIntentRevision}
    {parentRevisionId : TaskIntentRevisionId} {workingIntent : WorkingIntentSnapshot}
    {semanticHash : String} {lineage : ContinuedLineage}
    (ran : continueLineage text db ids locator externalSessionId owner head parentRevisionId
      workingIntent semanticHash = .ok lineage) :
    Continued text db ids locator externalSessionId owner head parentRevisionId workingIntent
      semanticHash lineage := by
  unfold continueLineage at ran
  split at ran
  case isTrue isHead =>
    split at ran
    case isTrue sameHash =>
      cases ran
      exact .alreadyCurrent (Or.inl isHead) sameHash
    case isFalse =>
      simp only [Result.bind_eq_ok, Result.pure_eq_ok, Prod.exists] at ran
      obtain ⟨tables, revision, appended, rfl⟩ := ran
      exact .created isHead appended
  case isFalse superseded =>
    split at ran
    case isTrue converges =>
      cases ran
      exact .alreadyCurrent (Or.inr converges.1) converges.2
    case isFalse diverges =>
      split at ran
      case isTrue => cases ran
      case isFalse =>
        simp only [Result.bind_eq_ok] at ran
        obtain ⟨forked, initial, ordinal, _, inserted, added, ran⟩ := ran
        have forkedEq := fromInitial_ok initial
        subst forkedEq
        cases ran
        exact .forked superseded diverges added

/-- What a committed continue ran through: the Session, the owner of the parent,
its Head, the placement and the switch. -/
theorem continueWorkingIntent_ok {db after : RuntimeDatabase} {ids : NewIds}
    {locator : ExternalSessionLocator} {parentRevisionId : TaskIntentRevisionId}
    {workingIntent : WorkingIntentSnapshot} {outcome : ContinueWorkingIntentOutcome}
    (ran : continueWorkingIntent text db ids locator parentRevisionId workingIntent =
      .ok (after, outcome)) :
    locator.validate = .ok () ∧ workingIntent.validate text = .ok () ∧
    ∃ external owner head lineage,
      readExternalIdentity db.lineages locator = some external ∧
      readIntentRevisionOwner db.lineages parentRevisionId = some owner ∧
      owner.externalSession = external.externalSessionId ∧
      readIntentRevision text db.lineages owner.headRevision = .ok head ∧
      continueLineage text db ids locator external.externalSessionId owner head parentRevisionId
        workingIntent (workingIntent.semanticHash text) = .ok lineage ∧
      compareAndSwitch lineage.db.lineages external.externalSessionId external.activeTaskId
        lineage.taskSessionId lineage.taskId = .ok after.lineages ∧
      after = { lineage.db with lineages := after.lineages } ∧
      requireSnapshot text after lineage.taskSessionId = .ok outcome.snapshot ∧
      outcome = ⟨outcome.snapshot, lineage.revision, lineage.status,
        external.activeTaskId ≠ lineage.taskId⟩ := by
  simp only [continueWorkingIntent, Result.bind_eq_ok, Result.exists_unit,
    WorkingIntentSnapshot.canonicalSemanticHash_eq_ok, requireExternalIdentity_eq_ok] at ran
  obtain ⟨locatorValid, intentValid, _, ⟨_, rfl⟩, external, externalRead, ran⟩ := ran
  split at ran
  case h_1 => cases ran
  case h_2 owner ownerRead =>
    simp only [Result.bind_eq_ok, Result.exists_unit, Result.require_eq_ok,
      Result.pure_eq_ok] at ran
    obtain ⟨sameExternal, head, headRead, lineage, placed, tables, switched, snapshot, shown,
      made⟩ := ran
    cases made
    exact ⟨locatorValid, intentValid, external, owner, head, lineage, externalRead, ownerRead,
      sameExternal, headRead, placed, switched, rfl, shown, rfl⟩

theorem continueWorkingIntent_advances {db after : RuntimeDatabase} {ids : NewIds}
    {locator : ExternalSessionLocator} {parentRevisionId : TaskIntentRevisionId}
    {workingIntent : WorkingIntentSnapshot} {outcome : ContinueWorkingIntentOutcome}
    (ran : continueWorkingIntent text db ids locator parentRevisionId workingIntent =
      .ok (after, outcome))
    (consistent : db.lineages.Consistent) :
    Advances db.lineages after.lineages (outcome.revision :: outcome.snapshot.intentRevisions) ∧
      (outcome.status = .alreadyCurrent →
        IsHeadOf after.lineages outcome.revision (workingIntent.semanticHash text)) := by
  obtain ⟨_, _, external, owner, head, lineage, externalRead, ownerRead, sameExternal, headRead,
    placed, switched, _, shown, outcomeEq⟩ := continueWorkingIntent_ok ran
  obtain ⟨_, _, _, task, taskMem, _, rfl⟩ := readIntentRevisionOwner_some ownerRead
  obtain ⟨headRow, headMem, headEq, headId, _⟩ := readIntentRevision_ok headRead
  have retained : db.lineages.Retains external.externalSessionId task.taskSessionId
      task.taskId := ⟨task, taskMem, sameExternal, rfl, rfl⟩
  have switch := compareAndSwitch_ok switched
  have snapshotRows : ∀ revision ∈ outcome.snapshot.intentRevisions,
      ∃ row ∈ after.lineages.taskIntentRevision, row.revision = revision :=
    fun revision => requireSnapshot_mem shown
  rw [outcomeEq]
  cases continueLineage_ok placed with
  | alreadyCurrent converges sameHash =>
      refine ⟨⟨switch.consistent consistent retained, switch.grows, ?_⟩, ?_⟩
      · intro revision revisionMem
        rcases List.mem_cons.mp revisionMem with rfl | shownMem
        · exact ⟨headRow, switch.grows.revisions headRow headMem, headEq⟩
        · exact snapshotRows revision shownMem
      · intro _
        refine ⟨⟨task, ?_, headId.symm⟩, sameHash⟩
        rw [switch.taskSession]
        exact taskMem
  | created isHead appendRan =>
      obtain ⟨appended, _, _⟩ := appendRevisionInTransaction_ok appendRan taskMem headId
      have appendedConsistent : Lineages.Consistent _ :=
        ⟨appended.chained consistent.chained, appended.selected consistent.selected⟩
      refine ⟨⟨switch.consistent appendedConsistent (appended.grows.retains _ _ _ retained),
        appended.grows.trans switch.grows, ?_⟩, fun impossible => absurd impossible (by simp)⟩
      intro revision revisionMem
      rcases List.mem_cons.mp revisionMem with rfl | shownMem
      · obtain ⟨row, rowMem, _, rowEq⟩ := appended.revision_mem
        exact ⟨row, switch.grows.revisions row rowMem, rowEq⟩
      · exact snapshotRows revision shownMem
  | forked superseded diverges inserted =>
      have added := insertTask_ok inserted rfl
      have owner := (readExternalIdentity_some externalRead).1
      have addedConsistent : Lineages.Consistent _ :=
        ⟨added.chained consistent.chained,
          added.selected consistent.selected ⟨external, owner, rfl⟩⟩
      refine ⟨⟨switch.consistent addedConsistent added.retains,
        added.grows.trans switch.grows, ?_⟩, fun impossible => absurd impossible (by simp)⟩
      intro revision revisionMem
      rcases List.mem_cons.mp revisionMem with rfl | shownMem
      · exact ⟨_, switch.grows.revisions _ (added.mem_taskIntentRevision.mpr (Or.inr rfl)), rfl⟩
      · exact snapshotRows revision shownMem

/-! ### Calls and runs -/

/-- A call of a client, with the identifiers it would create. -/
inductive LineageCall
  | openOrCreate (ids : NewIds) (locator : ExternalSessionLocator) (taskId : TaskId)
      (initialIntent : WorkingIntentSnapshot) (signals : List TaskSignal)
  | startNewTask (ids : NewIds) (locator : ExternalSessionLocator)
      (expectedActiveTaskId : TaskId) (initialIntent : WorkingIntentSnapshot)
      (signals : List TaskSignal)
  | switchActiveTask (locator : ExternalSessionLocator) (expectedActiveTaskId : TaskId)
      (targetTaskId : TaskId)
  | appendIntentRevision (ids : NewIds) (taskSessionId : TaskSessionId)
      (parentRevisionId : TaskIntentRevisionId) (workingIntent : WorkingIntentSnapshot)
  | continueWorkingIntent (ids : NewIds) (locator : ExternalSessionLocator)
      (parentRevisionId : TaskIntentRevisionId) (workingIntent : WorkingIntentSnapshot)

inductive LineageAnswer
  | opened (outcome : OpenSessionOutcome)
  | started (outcome : StartNewTaskOutcome)
  | switched (outcome : SwitchActiveTaskOutcome)
  | appended (outcome : AppendIntentRevisionOutcome)
  | continued (outcome : ContinueWorkingIntentOutcome)
  deriving DecidableEq

/-- The revisions an answer shows: the written one and those of its snapshot. -/
def LineageAnswer.reported : LineageAnswer → List TaskIntentRevision
  | .opened outcome => outcome.snapshot.intentRevisions
  | .started outcome => outcome.snapshot.intentRevisions
  | .switched outcome => outcome.snapshot.intentRevisions
  | .appended outcome => [outcome.revision]
  | .continued outcome => outcome.revision :: outcome.snapshot.intentRevisions

/-- The revision and write status of an answer that has them. -/
def LineageAnswer.written : LineageAnswer → Option (TaskIntentRevision × IntentRevisionWriteStatus)
  | .appended outcome => some (outcome.revision, outcome.status)
  | .continued outcome => some (outcome.revision, outcome.status)
  | _ => none

def LineageCall.workingIntent : LineageCall → Option WorkingIntentSnapshot
  | .appendIntentRevision _ _ _ workingIntent => some workingIntent
  | .continueWorkingIntent _ _ _ workingIntent => some workingIntent
  | _ => none

variable (text) in
def performCall (db : RuntimeDatabase) : LineageCall →
    Result (RuntimeDatabase × LineageAnswer)
  | .openOrCreate ids locator taskId initialIntent signals =>
      (openOrCreate text db ids locator taskId initialIntent signals).map
        (Prod.map id .opened)
  | .startNewTask ids locator expectedActiveTaskId initialIntent signals =>
      (startNewTask text db ids locator expectedActiveTaskId initialIntent signals).map
        (Prod.map id .started)
  | .switchActiveTask locator expectedActiveTaskId targetTaskId =>
      (switchActiveTask text db locator expectedActiveTaskId targetTaskId).map
        (Prod.map id .switched)
  | .appendIntentRevision ids taskSessionId parentRevisionId workingIntent =>
      (appendIntentRevision text db ids taskSessionId parentRevisionId workingIntent).map
        (Prod.map id .appended)
  | .continueWorkingIntent ids locator parentRevisionId workingIntent =>
      (continueWorkingIntent text db ids locator parentRevisionId workingIntent).map
        (Prod.map id .continued)

/-- A committed call advances the lineages, and answers AlreadyCurrent only with
a Head that means the request. -/
theorem performCall_ok {db after : RuntimeDatabase} {call : LineageCall}
    {answer : LineageAnswer} (ran : performCall text db call = .ok (after, answer))
    (consistent : db.lineages.Consistent) :
    Advances db.lineages after.lineages answer.reported ∧
      ∀ revision, answer.written = some (revision, .alreadyCurrent) →
        ∃ workingIntent, call.workingIntent = some workingIntent ∧
          IsHeadOf after.lineages revision (workingIntent.semanticHash text) := by
  cases call with
  | openOrCreate ids locator taskId initialIntent signals =>
      obtain ⟨⟨_, outcome⟩, performed, answerEq⟩ := Result.map_eq_ok.mp ran
      cases answerEq
      exact ⟨openOrCreate_ok performed consistent, fun _ impossible => by cases impossible⟩
  | startNewTask ids locator expectedActiveTaskId initialIntent signals =>
      obtain ⟨⟨_, outcome⟩, performed, answerEq⟩ := Result.map_eq_ok.mp ran
      cases answerEq
      exact ⟨startNewTask_ok performed consistent, fun _ impossible => by cases impossible⟩
  | switchActiveTask locator expectedActiveTaskId targetTaskId =>
      obtain ⟨⟨_, outcome⟩, performed, answerEq⟩ := Result.map_eq_ok.mp ran
      cases answerEq
      exact ⟨switchActiveTask_ok performed consistent, fun _ impossible => by cases impossible⟩
  | appendIntentRevision ids taskSessionId parentRevisionId workingIntent =>
      obtain ⟨⟨_, outcome⟩, performed, answerEq⟩ := Result.map_eq_ok.mp ran
      cases answerEq
      obtain ⟨advances, isHead⟩ := appendIntentRevision_ok performed consistent
      refine ⟨advances, ?_⟩
      intro revision writtenEq
      obtain ⟨revisionEq, statusEq⟩ := Prod.mk.inj (Option.some.inj writtenEq)
      subst revisionEq
      exact ⟨workingIntent, rfl, isHead statusEq⟩
  | continueWorkingIntent ids locator parentRevisionId workingIntent =>
      obtain ⟨⟨_, outcome⟩, performed, answerEq⟩ := Result.map_eq_ok.mp ran
      cases answerEq
      obtain ⟨advances, isHead⟩ := continueWorkingIntent_advances performed consistent
      refine ⟨advances, ?_⟩
      intro revision writtenEq
      obtain ⟨revisionEq, statusEq⟩ := Prod.mk.inj (Option.some.inj writtenEq)
      subst revisionEq
      exact ⟨workingIntent, rfl, isHead statusEq⟩

/-- One call of a run: the database before it, the response and the database
after it. -/
structure Exchange where
  before : RuntimeDatabase
  call : LineageCall
  response : Result LineageAnswer
  after : RuntimeDatabase

/-- The runs of the store from an empty database, with the exchanges so far.
Any call may also be refused by the database itself (busy, full, interrupted
before its commit), and other operations of the store may change its other
tables. -/
inductive LineageRun (text : IntentText) : List Exchange → RuntimeDatabase → Prop
  | start : LineageRun text [] .empty
  | answered {log : List Exchange} {db after : RuntimeDatabase} {call : LineageCall}
      {answer : LineageAnswer} (run : LineageRun text log db)
      (performed : performCall text db call = .ok (after, answer)) :
      LineageRun text (log ++ [⟨db, call, .ok answer, after⟩]) after
  | rejected {log : List Exchange} {db : RuntimeDatabase} {call : LineageCall} {error : Error}
      (run : LineageRun text log db) (refused : performCall text db call = .error error) :
      LineageRun text (log ++ [⟨db, call, .error error, db⟩]) db
  | interrupted {log : List Exchange} {db : RuntimeDatabase} (call : LineageCall)
      (error : Error) (run : LineageRun text log db) :
      LineageRun text (log ++ [⟨db, call, .error error, db⟩]) db
  | elsewhere {log : List Exchange} {db after : RuntimeDatabase} (run : LineageRun text log db)
      (unchanged : after.lineages = db.lineages) : LineageRun text log after

namespace LineageRun

theorem consistent {log : List Exchange} {db : RuntimeDatabase}
    (run : LineageRun text log db) : db.lineages.Consistent := by
  induction run with
  | start => exact consistent_empty
  | answered run performed ih => exact (performCall_ok performed ih).1.consistent
  | rejected run refused ih => exact ih
  | interrupted call error run ih => exact ih
  | elsewhere run unchanged ih => rwa [unchanged]

theorem reported_mem {log : List Exchange} {db : RuntimeDatabase}
    (run : LineageRun text log db) :
    ∀ exchange ∈ log, ∀ answer, exchange.response = .ok answer →
      ∀ revision ∈ answer.reported,
        ∃ row ∈ db.lineages.taskIntentRevision, row.revision = revision := by
  induction run with
  | start => exact fun exchange exchangeMem => absurd exchangeMem List.not_mem_nil
  | answered run performed ih =>
      have advances := (performCall_ok performed run.consistent).1
      intro exchange exchangeMem answer responseEq revision revisionMem
      rcases List.mem_append.mp exchangeMem with earlier | isNew
      · obtain ⟨row, rowMem, rowEq⟩ := ih exchange earlier answer responseEq revision revisionMem
        exact ⟨row, advances.grows.revisions row rowMem, rowEq⟩
      · cases List.mem_singleton.mp isNew
        cases responseEq
        exact advances.reported revision revisionMem
  | rejected run refused ih =>
      intro exchange exchangeMem answer responseEq
      rcases List.mem_append.mp exchangeMem with earlier | isNew
      · exact ih exchange earlier answer responseEq
      · cases List.mem_singleton.mp isNew
        cases responseEq
  | interrupted call error run ih =>
      intro exchange exchangeMem answer responseEq
      rcases List.mem_append.mp exchangeMem with earlier | isNew
      · exact ih exchange earlier answer responseEq
      · cases List.mem_singleton.mp isNew
        cases responseEq
  | elsewhere run unchanged ih => rwa [unchanged]

theorem exchange_cases {log : List Exchange} {db : RuntimeDatabase}
    (run : LineageRun text log db) : ∀ exchange ∈ log,
      (∃ answer, exchange.response = .ok answer ∧ exchange.before.lineages.Consistent ∧
        performCall text exchange.before exchange.call = .ok (exchange.after, answer)) ∨
      (∃ error, exchange.response = .error error ∧ exchange.after = exchange.before) := by
  induction run with
  | start => exact fun exchange exchangeMem => absurd exchangeMem List.not_mem_nil
  | answered run performed ih =>
      intro exchange exchangeMem
      rcases List.mem_append.mp exchangeMem with earlier | isNew
      · exact ih exchange earlier
      · cases List.mem_singleton.mp isNew
        exact Or.inl ⟨_, rfl, run.consistent, performed⟩
  | rejected run refused ih =>
      intro exchange exchangeMem
      rcases List.mem_append.mp exchangeMem with earlier | isNew
      · exact ih exchange earlier
      · cases List.mem_singleton.mp isNew
        exact Or.inr ⟨_, rfl, rfl⟩
  | interrupted call error run ih =>
      intro exchange exchangeMem
      rcases List.mem_append.mp exchangeMem with earlier | isNew
      · exact ih exchange earlier
      · cases List.mem_singleton.mp isNew
        exact Or.inr ⟨_, rfl, rfl⟩
  | elsewhere run unchanged ih => exact ih

end LineageRun

/-- The revisions of a Task Session as the store reads them. -/
def Lineages.revisionsOf (tables : Lineages) (taskSessionId : TaskSessionId) :
    List TaskIntentRevision :=
  (intentRevisionRows tables taskSessionId).map (·.revision)

/-- The revisions of a Task form a single parent chain whose last element is
its Head, and none is repeated. -/
structure IsLineage (tables : Lineages) (task : TaskSessionRow) : Prop where
  chain : ParentChain none (tables.revisionsOf task.taskSessionId)
  head : (tables.revisionsOf task.taskSessionId).getLast?.map (·.revisionId) =
    some task.currentIntentRevisionId
  distinct : ((tables.revisionsOf task.taskSessionId).map (·.revisionId)).Nodup

theorem Lineages.Chained.isLineage {tables : Lineages} (chained : tables.Chained)
    {task : TaskSessionRow} (taskMem : task ∈ tables.taskSession) : IsLineage tables task := by
  have taskChained := chained.tasks task taskMem
  refine ⟨?_, ?_, ?_⟩
  · rw [revisionsOf, taskChained.rows_sorted]
    exact taskChained.chain
  · rw [revisionsOf, taskChained.rows_sorted, List.getLast?_map, Option.map_map]
    exact taskChained.head
  · rw [revisionsOf, taskChained.rows_sorted, List.map_map]
    exact tables.taskIntentRevision.keysNodup.sublist (List.filter_sublist.map _)

theorem Lineages.Chained.one_chain {tables : Lineages} (chained : tables.Chained)
    {row : TaskIntentRevisionRow} (rowMem : row ∈ tables.taskIntentRevision) :
    ∃! task, task ∈ tables.taskSession ∧
      row.revision ∈ tables.revisionsOf task.taskSessionId := by
  obtain ⟨task, taskMem, sameSession⟩ := chained.owned row rowMem
  refine ⟨task, ⟨taskMem, ?_⟩, ?_⟩
  · rw [revisionsOf, (chained.tasks task taskMem).rows_sorted]
    exact List.mem_map_of_mem (mem_revisionRows.mpr ⟨rowMem, sameSession.symm⟩)
  · intro other otherOwns
    obtain ⟨otherMem, revisionMem⟩ := otherOwns
    rw [revisionsOf, (chained.tasks other otherMem).rows_sorted] at revisionMem
    obtain ⟨otherRow, otherRowMem, sameRevision⟩ := List.mem_map.mp revisionMem
    obtain ⟨stored, otherSession⟩ := mem_revisionRows.mp otherRowMem
    have sameRow : otherRow = row := Table.eq_of_key stored rowMem
      (congrArg TaskIntentRevision.revisionId sameRevision)
    subst sameRow
    exact Table.eq_of_key otherMem taskMem (otherSession.symm.trans sameSession.symm)

/-- Working Intent lineages never fork, lose or cross.  In every interleaving
of the five operations: the revisions of each Task are one parent chain that
ends at its Head; each External Session has exactly one retained Task active;
every revision an answer reported is in the chain of exactly one Task; an
AlreadyCurrent answer returns a Head with the semantic hash of the request; and
a rejected call leaves the database as it was. -/
theorem lineages_never_fork_or_cross {log : List Exchange} {db : RuntimeDatabase}
    (run : LineageRun text log db) :
    (∀ task ∈ db.lineages.taskSession, IsLineage db.lineages task) ∧
    (∀ external ∈ db.lineages.externalSession, ∃! task,
      task ∈ db.lineages.taskSession ∧
        task.externalSessionId = external.externalSessionId ∧
        task.taskSessionId = external.activeTaskSessionId ∧
        task.taskId = external.activeTaskId) ∧
    (∀ exchange ∈ log, ∀ answer, exchange.response = .ok answer →
      ∀ revision ∈ answer.reported, ∃! task, task ∈ db.lineages.taskSession ∧
        revision ∈ db.lineages.revisionsOf task.taskSessionId) ∧
    (∀ exchange ∈ log, ∀ answer, exchange.response = .ok answer →
      ∀ revision, answer.written = some (revision, .alreadyCurrent) →
        ∃ workingIntent, exchange.call.workingIntent = some workingIntent ∧
          IsHeadOf exchange.after.lineages revision (workingIntent.semanticHash text)) ∧
    (∀ exchange ∈ log, ∀ error, exchange.response = .error error →
      exchange.after = exchange.before) := by
  have consistent := run.consistent
  refine ⟨fun task taskMem => consistent.chained.isLineage taskMem, ?_, ?_, ?_, ?_⟩
  · intro external externalMem
    obtain ⟨task, taskMem, identity⟩ := consistent.selected.active external externalMem
    refine ⟨task, ⟨taskMem, identity⟩, ?_⟩
    intro other otherActive
    exact Table.eq_of_key otherActive.1 taskMem (otherActive.2.2.1.trans identity.2.1.symm)
  · intro exchange exchangeMem answer responseEq revision revisionMem
    obtain ⟨row, rowMem, rfl⟩ :=
      run.reported_mem exchange exchangeMem answer responseEq revision revisionMem
    exact consistent.chained.one_chain rowMem
  · intro exchange exchangeMem answer responseEq revision writtenEq
    rcases run.exchange_cases exchange exchangeMem with committed | refused
    · obtain ⟨committedAnswer, committedEq, before, performed⟩ := committed
      rw [responseEq] at committedEq
      cases committedEq
      exact (performCall_ok performed before).2 revision writtenEq
    · obtain ⟨error, errorEq, _⟩ := refused
      rw [responseEq] at errorEq
      cases errorEq
  · intro exchange exchangeMem error responseEq
    rcases run.exchange_cases exchange exchangeMem with committed | refused
    · obtain ⟨answer, answerEq, _, _⟩ := committed
      rw [responseEq] at answerEq
      cases answerEq
    · obtain ⟨_, _, unchanged⟩ := refused
      exact unchanged

/-! ### Executing an interleaving -/

variable (text) in
/-- Perform one call and record the exchange. -/
def exchangeOf (db : RuntimeDatabase) (call : LineageCall) : Exchange :=
  match performCall text db call with
  | .ok (after, answer) => ⟨db, call, .ok answer, after⟩
  | .error error => ⟨db, call, .error error, db⟩

variable (text) in
def interleave (db : RuntimeDatabase) : List LineageCall → List Exchange
  | [] => []
  | call :: rest => exchangeOf text db call :: interleave (exchangeOf text db call).after rest

def finalDatabase (db : RuntimeDatabase) (log : List Exchange) : RuntimeDatabase :=
  (log.getLast?.map (·.after)).getD db

theorem LineageRun.exchange {log : List Exchange} {db : RuntimeDatabase}
    (run : LineageRun text log db) (call : LineageCall) :
    LineageRun text (log ++ [exchangeOf text db call]) (exchangeOf text db call).after := by
  unfold exchangeOf
  split
  · rename_i performed
    exact run.answered performed
  · rename_i refused
    exact run.rejected refused

theorem LineageRun.interleave {log : List Exchange} {db : RuntimeDatabase}
    (run : LineageRun text log db) (calls : List LineageCall) :
    LineageRun text (log ++ interleave text db calls)
      (finalDatabase db (SharedContext.interleave text db calls)) := by
  induction calls generalizing log db with
  | nil => simpa [SharedContext.interleave, finalDatabase] using run
  | cons call rest ih =>
      have next := ih (run.exchange call)
      rw [List.append_assoc] at next
      have finalEq : finalDatabase (exchangeOf text db call).after
            (SharedContext.interleave text (exchangeOf text db call).after rest) =
          finalDatabase db (SharedContext.interleave text db (call :: rest)) := by
        cases restLog : SharedContext.interleave text (exchangeOf text db call).after rest with
        | nil => simp [SharedContext.interleave, finalDatabase, restLog]
        | cons head tail =>
            simp [SharedContext.interleave, finalDatabase, restLog, List.getLast?_cons]
      rwa [finalEq] at next

/-! ### A forked lineage -/

def sampleWorkingIntent (goal : String) : WorkingIntentSnapshot :=
  ⟨goal, none, [], [], [], [], [], [], [], [], []⟩

/-- Goals in lower-case ASCII, and a digest that keeps its input. -/
def sampleIntentText : IntentText where
  strToLowercase value := value
  charToLowercase character := [character]
  isAlphanumeric := Char.isAlphanum
  canonicalToVec intent := intent.goal.toList.map fun character => character.toNat.toUInt8
  sha256Hex bytes := String.ofList (bytes.map fun byte => Char.ofNat byte.toNat)

def sampleLocator : ExternalSessionLocator :=
  ⟨"codex", "shared"⟩

def sampleIds (number : Nat) : NewIds :=
  ⟨⟨.ofNat _ number⟩, ⟨.ofNat _ number⟩, ⟨.ofNat _ number⟩, ⟨.ofNat _ number⟩⟩

def sampleIntentRevision (number : Nat) (parent : Option Nat) (goal : String) : TaskIntentRevision :=
  ⟨⟨.ofNat _ number⟩, parent.map fun parent => ⟨.ofNat _ parent⟩, sampleWorkingIntent goal,
    (sampleWorkingIntent goal).semanticHash sampleIntentText⟩

/-- Two Agents of one Session continue its first revision with different goals. -/
def sampleCalls : List LineageCall :=
  [.openOrCreate (sampleIds 1) sampleLocator ⟨1⟩ (sampleWorkingIntent "review") [],
    .continueWorkingIntent (sampleIds 2) sampleLocator ⟨1⟩ (sampleWorkingIntent "bar"),
    .continueWorkingIntent (sampleIds 3) sampleLocator ⟨1⟩ (sampleWorkingIntent "anchor")]

def sampleLog : List Exchange :=
  interleave sampleIntentText .empty sampleCalls

def sampleDatabase : RuntimeDatabase :=
  finalDatabase .empty sampleLog

theorem sampleLog_run : LineageRun sampleIntentText sampleLog sampleDatabase := by
  have run := (@LineageRun.start sampleIntentText).interleave sampleCalls
  rw [List.nil_append] at run
  exact run

/-- The run ends with the lineage of the first Agent, two revisions long, and
the forked Task of the second. -/
theorem lineages_never_fork_or_cross_sample :
    (sampleDatabase.lineages.taskSession.rows.map fun task =>
      (task.currentIntentRevisionId.uuid.toNat,
        (sampleDatabase.lineages.revisionsOf task.taskSessionId).length)) = [(2, 2), (3, 1)] ∧
      (sampleLog.map fun exchange => exchange.response.isOk) = [true, true, true] ∧
      (∀ task ∈ sampleDatabase.lineages.taskSession,
        IsLineage sampleDatabase.lineages task) ∧
      (∀ exchange ∈ sampleLog, ∀ answer, exchange.response = .ok answer →
        ∀ revision ∈ answer.reported, ∃! task, task ∈ sampleDatabase.lineages.taskSession ∧
          revision ∈ sampleDatabase.lineages.revisionsOf task.taskSessionId) := by
  have sound := lineages_never_fork_or_cross sampleLog_run
  refine ⟨?_, ?_, sound.1, sound.2.2.1⟩
  · decide
  · decide

end SharedContext
