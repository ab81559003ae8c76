import SharedContext.TaskRuntime.LineageChains

/-!
# What the lineage operations can do

Each write to the lineage tables is inverted once: a committed insertion adds
a Task, a committed append extends one, a committed switch selects a Task of
the same External Session.  From these the operations keep the invariant, never
lose a revision and report only revisions that are in the tables.
-/

namespace SharedContext

variable {text : IntentText}

/-! ### Reading -/

theorem readExternalIdentity_some {tables : Lineages} {locator : ExternalSessionLocator}
    {external : ExternalSessionRow} (found : readExternalIdentity tables locator = some external) :
    external ∈ tables.externalSession ∧ external.locator = locator := by
  have located := List.find?_some
    (p := fun row : ExternalSessionRow => decide (row.locator = locator)) found
  exact ⟨List.mem_of_find?_eq_some found, of_decide_eq_true located⟩

theorem requireExternalIdentity_eq_ok {tables : Lineages} {locator : ExternalSessionLocator}
    {external : ExternalSessionRow} :
    requireExternalIdentity tables locator = .ok external ↔
      readExternalIdentity tables locator = some external := by
  unfold requireExternalIdentity
  split <;> simp [*]

theorem readIntentRevision_ok {tables : Lineages} {revisionId : TaskIntentRevisionId}
    {revision : TaskIntentRevision}
    (read : readIntentRevision text tables revisionId = .ok revision) :
    ∃ row ∈ tables.taskIntentRevision, row.revision = revision ∧
      revision.revisionId = revisionId ∧ revision.validate text = .ok () := by
  unfold readIntentRevision at read
  split at read
  case h_1 row found =>
    rw [Result.seq_eq_ok, Result.pure_eq_ok] at read
    obtain ⟨valid, rfl⟩ := read
    have rowFound := Table.find?_eq_some.mp found
    exact ⟨row, rowFound.1, rfl, rowFound.2, valid⟩
  case h_2 => cases read

theorem readIntentRevision_of_mem {tables : Lineages} {row : TaskIntentRevisionRow}
    (rowMem : row ∈ tables.taskIntentRevision) (valid : row.revision.validate text = .ok ()) :
    readIntentRevision text tables row.revisionId = .ok row.revision := by
  rw [readIntentRevision, Table.find?_eq_some.mpr ⟨rowMem, rfl⟩]
  change (row.revision.validate text >>= fun _ => pure row.revision) = _
  rw [valid]
  rfl

theorem readIntentRevisionOwner_some {tables : Lineages} {revisionId : TaskIntentRevisionId}
    {owner : IntentRevisionOwner} (found : readIntentRevisionOwner tables revisionId = some owner) :
    ∃ row ∈ tables.taskIntentRevision, row.revisionId = revisionId ∧
      ∃ task ∈ tables.taskSession, task.taskSessionId = row.taskSessionId ∧
        owner = ⟨task.externalSessionId, task.taskSessionId, task.taskId,
          task.currentIntentRevisionId⟩ := by
  simp only [readIntentRevisionOwner, Option.bind_eq_bind, Option.bind_eq_some_iff] at found
  obtain ⟨row, rowFound, task, taskFound, ownerEq⟩ := found
  have rowMem := Table.find?_eq_some.mp rowFound
  have taskMem := Table.find?_eq_some.mp taskFound
  exact ⟨row, rowMem.1, rowMem.2, task, taskMem.1, taskMem.2, (Option.some.inj ownerEq).symm⟩

theorem readIntentRevisionOwner_of_mem {tables : Lineages} {row : TaskIntentRevisionRow}
    {task : TaskSessionRow} (rowMem : row ∈ tables.taskIntentRevision)
    (taskMem : task ∈ tables.taskSession) (sameSession : task.taskSessionId = row.taskSessionId) :
    readIntentRevisionOwner tables row.revisionId =
      some ⟨task.externalSessionId, task.taskSessionId, task.taskId,
        task.currentIntentRevisionId⟩ := by
  simp [readIntentRevisionOwner, Table.find?_eq_some.mpr ⟨rowMem, rfl⟩,
    Table.find?_eq_some.mpr ⟨taskMem, sameSession⟩]

theorem readActiveTaskHead_some {tables : Lineages} {taskSessionId : TaskSessionId}
    {taskId : TaskId} {revisionId : TaskIntentRevisionId}
    (found : readActiveTaskHead tables taskSessionId = some (taskId, revisionId)) :
    ∃ task ∈ tables.taskSession, task.taskSessionId = taskSessionId ∧
      task.currentIntentRevisionId = revisionId := by
  simp only [readActiveTaskHead, Option.bind_eq_bind, Option.bind_eq_some_iff] at found
  obtain ⟨task, taskFound, external, _, selected⟩ := found
  split at selected
  · cases selected
    have taskMem := Table.find?_eq_some.mp taskFound
    exact ⟨task, taskMem.1, taskMem.2, rfl⟩
  · cases selected

/-- A snapshot that passed its checks shows the rows of a Task, its Head and its
active Signals. -/
theorem requireSnapshot_shows {db : RuntimeDatabase} {taskSessionId : TaskSessionId}
    {snapshot : TaskSessionSnapshot}
    (read : requireSnapshot text db taskSessionId = .ok snapshot) :
    snapshot.taskSessionId = taskSessionId ∧
      snapshot.intentRevisions =
        (intentRevisionRows db.lineages taskSessionId).map (·.revision) ∧
      snapshot.taskSignals = readActiveTaskSignals db taskSessionId := by
  rw [requireSnapshot, Result.bind_eq_ok] at read
  obtain ⟨found, ran, shown⟩ := read
  split at shown
  case h_2 => cases shown
  case h_1 =>
    cases shown
    simp only [readSnapshotInTransaction] at ran
    split at ran
    · cases ran
    · rw [Result.bind_eq_ok] at ran
      obtain ⟨revisions, revisionsRead, ran⟩ := ran
      simp only [readIntentRevisions, Result.seq_eq_ok, Result.pure_eq_ok] at revisionsRead
      split at ran
      case h_2 => cases ran
      case h_1 =>
        simp only [Result.seq_eq_ok, Result.pure_eq_ok] at ran
        obtain ⟨_, shown⟩ := ran
        cases shown
        exact ⟨rfl, revisionsRead.2.symm, rfl⟩

theorem requireSnapshot_ok {db : RuntimeDatabase} {taskSessionId : TaskSessionId}
    {snapshot : TaskSessionSnapshot}
    (read : requireSnapshot text db taskSessionId = .ok snapshot) :
    snapshot.taskSessionId = taskSessionId ∧
      snapshot.intentRevisions =
        (intentRevisionRows db.lineages taskSessionId).map (·.revision) :=
  ⟨(requireSnapshot_shows read).1, (requireSnapshot_shows read).2.1⟩

theorem requireSnapshot_mem {db : RuntimeDatabase} {taskSessionId : TaskSessionId}
    {snapshot : TaskSessionSnapshot}
    (read : requireSnapshot text db taskSessionId = .ok snapshot)
    {revision : TaskIntentRevision} (revisionMem : revision ∈ snapshot.intentRevisions) :
    ∃ row ∈ db.lineages.taskIntentRevision, row.revision = revision := by
  rw [(requireSnapshot_ok read).2] at revisionMem
  obtain ⟨row, rowMem, rowEq⟩ := List.mem_map.mp revisionMem
  have stored := (List.mem_insertionSort _).mp rowMem
  exact ⟨row, List.mem_of_mem_filter stored, rowEq⟩

/-! ### Writing -/

@[simp]
theorem insertSignals_lineages (db : RuntimeDatabase) (taskSessionId : TaskSessionId)
    (signals : List TaskSignal) :
    (insertSignals db taskSessionId signals).lineages = db.lineages := by
  unfold insertSignals
  induction signals generalizing db with
  | nil => rfl
  | cons signal rest ih =>
      rw [List.foldl_cons, ih]
      split <;> rfl

theorem withBackfilledPrompts_lineages {db after : RuntimeDatabase}
    {locator : ExternalSessionLocator} {signals backfilled : List TaskSignal}
    (ran : withBackfilledPrompts db locator signals = .ok (after, backfilled)) :
    after.lineages = db.lineages := by
  simp only [withBackfilledPrompts] at ran
  split at ran
  · cases ran
    rfl
  · rw [Result.bind_eq_ok] at ran
    obtain ⟨normalized, _, made⟩ := ran
    cases made
    rfl

theorem fromInitial_ok {taskSessionId : TaskSessionId} {revisionId : TaskIntentRevisionId}
    {locator : ExternalSessionLocator} {taskId : TaskId} {workingIntent : WorkingIntentSnapshot}
    {signals : List TaskSignal} {snapshot : TaskSessionSnapshot}
    (made : TaskSessionSnapshot.fromInitial text taskSessionId revisionId locator taskId
      workingIntent signals = .ok snapshot) :
    snapshot = ⟨taskSessionId, taskId, locator,
      [⟨revisionId, none, workingIntent, workingIntent.semanticHash text⟩], signals⟩ := by
  simp only [TaskSessionSnapshot.fromInitial, Result.bind_eq_ok, Result.exists_unit,
    TaskIntentRevision.initial_eq_ok, Result.pure_eq_ok] at made
  obtain ⟨_, _, _, ⟨_, rfl⟩, _, rfl⟩ := made
  rfl

theorem insertTaskSession_ok {tables after : Lineages} {row : TaskSessionRow}
    (inserted : insertTaskSession tables row = .ok after) :
    ∃ taskSession, tables.taskSession.insert row = some taskSession ∧
      after = { tables with taskSession } := by
  simp only [insertTaskSession, Result.bind_eq_ok, Result.exists_unit] at inserted
  obtain ⟨_, _, inserted⟩ := inserted
  split at inserted
  case h_1 taskSession added =>
    cases inserted
    exact ⟨taskSession, added, rfl⟩
  case h_2 => cases inserted

theorem insertIntentRevision_ok {tables after : Lineages} {taskSessionId : TaskSessionId}
    {revisionOrdinal : Nat} {revision : TaskIntentRevision}
    (inserted : insertIntentRevision tables taskSessionId revisionOrdinal revision = .ok after) :
    ∃ taskIntentRevision,
      tables.taskIntentRevision.insert ⟨taskSessionId, revisionOrdinal, revision⟩ =
        some taskIntentRevision ∧ after = { tables with taskIntentRevision } := by
  simp only [insertIntentRevision, Result.bind_eq_ok, Result.exists_unit] at inserted
  obtain ⟨_, _, inserted⟩ := inserted
  split at inserted
  case h_1 taskIntentRevision added =>
    cases inserted
    exact ⟨taskIntentRevision, added, rfl⟩
  case h_2 => cases inserted

theorem insertTask_ok {db after : RuntimeDatabase} {externalSessionId : ExternalSessionId}
    {taskOrdinal : Nat} {taskSessionId : TaskSessionId} {taskId : TaskId}
    {locator : ExternalSessionLocator} {revision : TaskIntentRevision}
    {signals : List TaskSignal}
    (inserted : insertTask text db externalSessionId taskOrdinal
      ⟨taskSessionId, taskId, locator, [revision], signals⟩ = .ok after)
    (initial : revision.parentRevisionId = none) :
    TaskAdded db.lineages
      ⟨taskSessionId, externalSessionId, taskId, revision.revisionId, taskOrdinal⟩
      revision after.lineages := by
  simp only [insertTask, TaskSessionSnapshot.currentIntentRevision, Result.exists_unit,
    List.getLast?_singleton, Result.bind_eq_ok, Result.pure_eq_ok] at inserted
  obtain ⟨_, withTask, taskInserted, withRevision, revisionInserted, _, _, rfl⟩ := inserted
  obtain ⟨taskSession, taskAdded, rfl⟩ := insertTaskSession_ok taskInserted
  obtain ⟨taskIntentRevision, revisionAdded, rfl⟩ := insertIntentRevision_ok revisionInserted
  have taskRows := Table.insert_eq_some.mp taskAdded
  have revisionRows := Table.insert_eq_some.mp revisionAdded
  exact
    { external := by rw [insertSignals_lineages]
      sessions := by rw [insertSignals_lineages]; exact taskRows.2
      revisions := by rw [insertSignals_lineages]; exact revisionRows.2
      fresh := taskRows.1
      initial := initial
      head := rfl }

theorem appendRevisionInTransaction_ok {tables after : Lineages}
    {revisionId : TaskIntentRevisionId} {current revision : TaskIntentRevision}
    {workingIntent : WorkingIntentSnapshot} {task : TaskSessionRow}
    (appended : appendRevisionInTransaction text tables revisionId task.taskSessionId current
      workingIntent = .ok (after, revision))
    (taskMem : task ∈ tables.taskSession)
    (isHead : current.revisionId = task.currentIntentRevisionId) :
    RevisionAppended tables task revision after ∧
      revision = ⟨revisionId, some current.revisionId, workingIntent,
        workingIntent.semanticHash text⟩ ∧
      (∀ row ∈ tables.taskIntentRevision, row.revisionId ≠ revisionId) := by
  simp only [appendRevisionInTransaction, Result.bind_eq_ok, Result.exists_unit,
    TaskIntentRevision.successor_eq_ok, Result.require_eq_ok, Result.pure_eq_ok] at appended
  obtain ⟨_, ⟨_, _, rfl⟩, ordinal, ordinalRead, _, withRevision, inserted, _, made⟩ := appended
  cases made
  obtain ⟨taskIntentRevision, added, rfl⟩ := insertIntentRevision_ok inserted
  have rows := Table.insert_eq_some.mp added
  unfold readRevisionOrdinal at ordinalRead
  split at ordinalRead
  case h_2 => cases ordinalRead
  case h_1 row found =>
    cases ordinalRead
    have rowFound := Table.find?_eq_some.mp found
    refine ⟨?_, rfl, rows.1⟩
    refine
      { external := rfl
        taskMem := taskMem
        sessions := ?_
        revisions := ⟨_, row, rowFound.1, rowFound.2.trans isHead, rfl, rows.2⟩
        parent := congrArg some isHead }
    intro other
    rw [Table.mem_updateWhere]
    constructor
    · rintro ⟨old, oldMem, otherEq⟩
      by_cases isTask : old.taskSessionId = task.taskSessionId
      · have oldEq := Table.eq_of_key oldMem taskMem isTask
        subst oldEq
        right
        simpa [isHead] using otherEq.symm
      · left
        have unchanged : old = other := by simpa [isTask] using otherEq
        exact ⟨unchanged ▸ oldMem, unchanged ▸ isTask⟩
    · rintro (⟨otherMem, distinct⟩ | rfl)
      · exact ⟨other, otherMem, by simp [distinct]⟩
      · exact ⟨task, taskMem, by simp [isHead]⟩

/-- A committed switch changes one External Session. -/
structure Switched (before : Lineages) (externalSessionId : ExternalSessionId)
    (taskSessionId : TaskSessionId) (taskId : TaskId) (after : Lineages) : Prop where
  taskSession : after.taskSession = before.taskSession
  taskIntentRevision : after.taskIntentRevision = before.taskIntentRevision
  external : ∀ row ∈ after.externalSession, row ∈ before.externalSession ∨
    (row.externalSessionId = externalSessionId ∧ row.activeTaskSessionId = taskSessionId ∧
      row.activeTaskId = taskId)
  kept : ∀ row ∈ before.externalSession, ∃ other ∈ after.externalSession,
    other.externalSessionId = row.externalSessionId

theorem compareAndSwitch_ok {tables after : Lineages} {externalSessionId : ExternalSessionId}
    {expectedActiveTaskId taskId : TaskId} {taskSessionId : TaskSessionId}
    (switched : compareAndSwitch tables externalSessionId expectedActiveTaskId taskSessionId
      taskId = .ok after) :
    Switched tables externalSessionId taskSessionId taskId after := by
  simp only [compareAndSwitch, Result.seq_eq_ok, Result.pure_eq_ok] at switched
  obtain ⟨_, rfl⟩ := switched
  refine ⟨rfl, rfl, ?_, ?_⟩
  · intro row rowMem
    rw [Table.mem_updateWhere] at rowMem
    obtain ⟨old, oldMem, rowEq⟩ := rowMem
    split at rowEq
    · rename_i matched
      right
      subst rowEq
      exact ⟨(of_decide_eq_true matched).1, rfl, rfl⟩
    · left
      exact rowEq ▸ oldMem
  · intro row rowMem
    refine Table.exists_mem_updateWhere ?_ rowMem
    intro other
    rfl

/-! ### The invariant is kept -/

namespace Lineages

/-- The invariant of the lineage tables. -/
structure Consistent (tables : Lineages) : Prop where
  chained : tables.Chained
  selected : tables.Selected

theorem consistent_empty : Lineages.empty.Consistent where
  chained := ⟨fun row rowMem => absurd rowMem (Table.not_mem_empty row),
    fun task taskMem => absurd taskMem (Table.not_mem_empty task)⟩
  selected := ⟨fun external externalMem => absurd externalMem (Table.not_mem_empty external),
    fun task taskMem => absurd taskMem (Table.not_mem_empty task)⟩

end Lineages

open Lineages

theorem TaskAdded.selected {before after : Lineages} {task : TaskSessionRow}
    {revision : TaskIntentRevision} (added : TaskAdded before task revision after)
    (selected : before.Selected)
    (owner : ∃ external ∈ before.externalSession,
      external.externalSessionId = task.externalSessionId) : after.Selected where
  active external externalMem := by
    rw [added.external] at externalMem
    exact added.grows.retains _ _ _ (selected.active external externalMem)
  sessions other otherMem := by
    rw [added.external]
    rcases added.mem_taskSession.mp otherMem with otherMem | rfl
    · exact selected.sessions other otherMem
    · exact owner

theorem RevisionAppended.selected {before after : Lineages} {task : TaskSessionRow}
    {revision : TaskIntentRevision} (appended : RevisionAppended before task revision after)
    (selected : before.Selected) : after.Selected where
  active external externalMem := by
    rw [appended.external] at externalMem
    exact appended.grows.retains _ _ _ (selected.active external externalMem)
  sessions other otherMem := by
    rw [appended.external]
    rcases (appended.sessions other).mp otherMem with ⟨otherMem, _⟩ | rfl
    · exact selected.sessions other otherMem
    · exact selected.sessions task appended.taskMem

namespace Switched

variable {before after : Lineages} {externalSessionId : ExternalSessionId}
  {taskSessionId : TaskSessionId} {taskId : TaskId}
  (switched : Switched before externalSessionId taskSessionId taskId after)
include switched

theorem grows : before.Grows after where
  revisions row rowMem := by rwa [switched.taskIntentRevision]
  retains _ _ _ retained := by
    rw [Retains, switched.taskSession]
    exact retained

theorem revisionRows (other : TaskSessionId) :
    after.revisionRows other = before.revisionRows other := by
  rw [Lineages.revisionRows, switched.taskIntentRevision]
  rfl

theorem consistent (consistent : before.Consistent)
    (target : before.Retains externalSessionId taskSessionId taskId) : after.Consistent where
  chained :=
    { owned := by
        rw [switched.taskIntentRevision, switched.taskSession]
        exact consistent.chained.owned
      tasks := by
        intro task taskMem
        rw [switched.taskSession] at taskMem
        have chained := consistent.chained.tasks task taskMem
        exact ⟨by rw [switched.revisionRows]; exact chained.ordinals,
          by rw [switched.revisionRows]; exact chained.chain,
          by rw [switched.revisionRows]; exact chained.head⟩ }
  selected :=
    { active := by
        intro external externalMem
        rcases switched.external external externalMem with externalMem | ⟨sameExternal, rfl, rfl⟩
        · exact switched.grows.retains _ _ _ (consistent.selected.active external externalMem)
        · rw [sameExternal]
          exact switched.grows.retains _ _ _ target
      sessions := by
        intro task taskMem
        rw [switched.taskSession] at taskMem
        obtain ⟨external, externalMem, sameExternal⟩ := consistent.selected.sessions task taskMem
        obtain ⟨other, otherMem, sameKey⟩ := switched.kept external externalMem
        exact ⟨other, otherMem, sameKey.trans sameExternal⟩ }

end Switched

end SharedContext
