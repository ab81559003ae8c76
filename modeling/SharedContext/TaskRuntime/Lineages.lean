import SharedContext.Domain.Task
import SharedContext.Library.Table

/-!
# Task lineages in the runtime store

The three tables of the runtime database that hold External Sessions, their
Tasks and the Intent revisions of each Task, and the operations that create,
select and extend a lineage.  An operation runs in one immediate transaction:
it returns the database to commit, or an error that rolls everything back.
Primary keys and unique indexes reject a conflicting row; every identifier an
operation invents is an argument, so a clash is possible and is refused.
-/

namespace SharedContext

def stale (message : String) : Error :=
  ⟨.staleState, message⟩

def invariantViolation (message : String) : Error :=
  ⟨.invariantViolation, message⟩

def sqlError (context detail : String) : Error :=
  ⟨.io, s!"{context}: {detail}"⟩

def ordinalBound : Nat := 2 ^ 63

structure ExternalSessionRow where
  externalSessionId : ExternalSessionId
  locator : ExternalSessionLocator
  activeTaskSessionId : TaskSessionId
  activeTaskId : TaskId
  deriving DecidableEq, Repr

structure TaskSessionRow where
  taskSessionId : TaskSessionId
  externalSessionId : ExternalSessionId
  taskId : TaskId
  currentIntentRevisionId : TaskIntentRevisionId
  taskOrdinal : Nat
  deriving DecidableEq, Repr

structure TaskIntentRevisionRow where
  taskSessionId : TaskSessionId
  revisionOrdinal : Nat
  revision : TaskIntentRevision
  deriving DecidableEq, Repr

def TaskIntentRevisionRow.revisionId (row : TaskIntentRevisionRow) : TaskIntentRevisionId :=
  row.revision.revisionId

inductive TaskSignalLifecycle
  | active
  | superseded
  deriving DecidableEq, Repr

structure TaskSignalRow where
  taskSessionId : TaskSessionId
  signal : TaskSignal
  lifecycle : TaskSignalLifecycle
  deriving DecidableEq, Repr

/-- A prompt held for an External Session that has no Task yet. -/
structure PendingPrompt where
  rowid : Nat
  locator : ExternalSessionLocator
  promptOrdinal : Nat
  content : String
  recordedAtUnixSeconds : Nat
  deriving DecidableEq, Repr

/-- The tables that record the lineages. -/
structure Lineages where
  externalSession : Table ExternalSessionRow ExternalSessionRow.externalSessionId
  taskSession : Table TaskSessionRow TaskSessionRow.taskSessionId
  taskIntentRevision : Table TaskIntentRevisionRow TaskIntentRevisionRow.revisionId

/-- The part of the runtime database these operations read and write. -/
structure RuntimeDatabase where
  lineages : Lineages
  taskSignal : List TaskSignalRow
  pendingPromptSignal : List PendingPrompt

def Lineages.empty : Lineages :=
  ⟨.empty, .empty, .empty⟩

def RuntimeDatabase.empty : RuntimeDatabase :=
  ⟨.empty, [], []⟩

/-! ### Reading -/

section Reading

variable (text : IntentText)

def readExternalIdentity (tables : Lineages) (locator : ExternalSessionLocator) :
    Option ExternalSessionRow :=
  tables.externalSession.rows.find? fun row => row.locator = locator

def findActiveTaskByLocator (tables : Lineages) (locator : ExternalSessionLocator) :
    Option TaskSessionId :=
  (readExternalIdentity tables locator).map (·.activeTaskSessionId)

def findTaskInExternalSession (tables : Lineages) (externalSessionId : ExternalSessionId)
    (taskId : TaskId) : Option TaskSessionId :=
  (tables.taskSession.rows.find? fun row =>
    row.externalSessionId = externalSessionId ∧ row.taskId = taskId).map (·.taskSessionId)

/-- The Task and Head of a Task Session, when its External Session has it active. -/
def readActiveTaskHead (tables : Lineages) (taskSessionId : TaskSessionId) :
    Option (TaskId × TaskIntentRevisionId) := do
  let task ← tables.taskSession.find? taskSessionId
  let external ← tables.externalSession.find? task.externalSessionId
  if external.activeTaskSessionId = task.taskSessionId ∧ external.activeTaskId = task.taskId then
    some (task.taskId, task.currentIntentRevisionId)
  else
    none

def intentRevisionRows (tables : Lineages) (taskSessionId : TaskSessionId) :
    List TaskIntentRevisionRow :=
  (tables.taskIntentRevision.rows.filter fun row =>
    row.taskSessionId = taskSessionId).insertionSort
      fun first second => first.revisionOrdinal ≤ second.revisionOrdinal

def readIntentRevisions (tables : Lineages) (taskSessionId : TaskSessionId) :
    Result (List TaskIntentRevision) := do
  let revisions := (intentRevisionRows tables taskSessionId).map (·.revision)
  revisions.forM (TaskIntentRevision.validate text)
  pure revisions

def readIntentRevision (tables : Lineages) (revisionId : TaskIntentRevisionId) :
    Result TaskIntentRevision :=
  match tables.taskIntentRevision.find? revisionId with
  | some row => do
      row.revision.validate text
      pure row.revision
  | none => .error (invariantViolation "ActiveTask Working Intent Head disappeared")

def readRevisionOrdinal (tables : Lineages) (revisionId : TaskIntentRevisionId) : Result Nat :=
  match tables.taskIntentRevision.find? revisionId with
  | some row => .ok row.revisionOrdinal
  | none => .error (sqlError "read Intent revision ordinal" "Query returned no rows")

/-- Owning Task lineage of one persisted Working Intent revision. -/
structure IntentRevisionOwner where
  externalSession : ExternalSessionId
  taskSession : TaskSessionId
  task : TaskId
  headRevision : TaskIntentRevisionId
  deriving DecidableEq, Repr

def readIntentRevisionOwner (tables : Lineages) (revisionId : TaskIntentRevisionId) :
    Option IntentRevisionOwner := do
  let row ← tables.taskIntentRevision.find? revisionId
  let task ← tables.taskSession.find? row.taskSessionId
  some ⟨task.externalSessionId, task.taskSessionId, task.taskId, task.currentIntentRevisionId⟩

def readActiveTaskSignals (db : RuntimeDatabase) (taskSessionId : TaskSessionId) :
    List TaskSignal :=
  (db.taskSignal.filter fun row =>
    row.taskSessionId = taskSessionId ∧ row.lifecycle = .active).map (·.signal)

def readSnapshotInTransaction (db : RuntimeDatabase) (taskSessionId : TaskSessionId) :
    Result (Option TaskSessionSnapshot) :=
  let row := do
    let task ← db.lineages.taskSession.find? taskSessionId
    let external ← db.lineages.externalSession.find? task.externalSessionId
    some (task, external)
  match row with
  | none => .ok none
  | some (task, external) => do
      let intentRevisions ← readIntentRevisions text db.lineages taskSessionId
      let snapshot : TaskSessionSnapshot :=
        { taskSessionId
          taskId := task.taskId
          externalSessionLocator := external.locator
          intentRevisions
          taskSignals := readActiveTaskSignals db taskSessionId }
      match snapshot.validate text with
      | .ok () => pure ()
      | .error error =>
          throw (invariantViolation s!"persisted Task violates contract: {error.message}")
      Result.require
        (snapshot.currentIntentRevision.map (·.revisionId) = some task.currentIntentRevisionId)
        (invariantViolation "persisted Intent Head differs from revision chain")
      pure (some snapshot)

def requireSnapshot (db : RuntimeDatabase) (taskSessionId : TaskSessionId) :
    Result TaskSessionSnapshot := do
  match ← readSnapshotInTransaction text db taskSessionId with
  | some snapshot => pure snapshot
  | none => throw (invariantViolation "Task disappeared inside runtime transaction")

end Reading

/-! ### Signals -/

/-- `value.trim()`. -/
def trim (value : String) : String :=
  String.ofList
    (((value.toList.dropWhile isWhiteSpace).reverse.dropWhile isWhiteSpace).reverse)

/-- Trim, check and deduplicate signals, given those already kept. -/
def normalizeSignalsFrom (normalized : List TaskSignal) :
    List TaskSignal → Result (List TaskSignal)
  | [] => pure normalized
  | signal :: rest => do
      let trimmed : TaskSignal := ⟨signal.kind, trim signal.content⟩
      trimmed.validate
      normalizeSignalsFrom
        (if trimmed ∈ normalized then normalized else normalized ++ [trimmed]) rest

def normalizeSignals (signals : List TaskSignal) : Result (List TaskSignal) :=
  normalizeSignalsFrom [] signals

/-- One Session's pending prompts in the order they were written. -/
def readPendingPrompts (prompts : List PendingPrompt) (locator : ExternalSessionLocator) :
    List String :=
  ((prompts.filter fun prompt => prompt.locator = locator).insertionSort
    fun first second => first.promptOrdinal ≤ second.promptOrdinal).map (·.content)

/-- Take the pending prompts of a Session as Signals before the given ones. -/
def withBackfilledPrompts (db : RuntimeDatabase) (locator : ExternalSessionLocator)
    (signals : List TaskSignal) : Result (RuntimeDatabase × List TaskSignal) := do
  let pending := readPendingPrompts db.pendingPromptSignal locator
  if pending.isEmpty then
    pure (db, signals)
  else
    let drained : RuntimeDatabase :=
      { db with
        pendingPromptSignal :=
          db.pendingPromptSignal.filter fun prompt => prompt.locator ≠ locator }
    let backfilled := pending.map fun content => TaskSignal.mk .prompt content
    let normalized ← normalizeSignals (backfilled ++ signals)
    pure (drained, normalized)

/-- Insert every signal that is not already active in the Task. -/
def insertSignals (db : RuntimeDatabase) (taskSessionId : TaskSessionId)
    (signals : List TaskSignal) : RuntimeDatabase :=
  signals.foldl (fun db signal =>
    if signal ∈ readActiveTaskSignals db taskSessionId then
      db
    else
      { db with taskSignal := db.taskSignal ++ [⟨taskSessionId, signal, .active⟩] }) db

/-! ### Writing -/

section Writing

variable (text : IntentText)

def insertExternalSession (tables : Lineages) (externalSessionId : ExternalSessionId)
    (locator : ExternalSessionLocator) (task : TaskSessionSnapshot) : Result Lineages := do
  Result.require (∀ row ∈ tables.externalSession.rows, row.locator ≠ locator)
    (sqlError "insert ExternalSession" ("UNIQUE constraint failed: " ++
      "external_session.agent_kind, external_session.external_session_key"))
  match tables.externalSession.insert
      ⟨externalSessionId, locator, task.taskSessionId, task.taskId⟩ with
  | some externalSession => pure { tables with externalSession }
  | none =>
      throw (sqlError "insert ExternalSession" ("UNIQUE constraint failed: " ++
        "external_session.external_session_id"))

/-- One partial unique index admits one initial revision for each Task, the
other one child for each parent. -/
def insertIntentRevision (tables : Lineages) (taskSessionId : TaskSessionId)
    (revisionOrdinal : Nat) (revision : TaskIntentRevision) : Result Lineages := do
  Result.require
    (∀ row ∈ tables.taskIntentRevision.rows, row.taskSessionId = taskSessionId →
      row.revisionOrdinal ≠ revisionOrdinal)
    (sqlError "insert Task Intent revision" ("UNIQUE constraint failed: " ++
      "task_intent_revision.task_session_id, task_intent_revision.revision_ordinal"))
  Result.require
    (∀ row ∈ tables.taskIntentRevision.rows, row.taskSessionId = taskSessionId →
      row.revision.parentRevisionId ≠ revision.parentRevisionId)
    (sqlError "insert Task Intent revision" ("UNIQUE constraint failed: " ++
      "task_intent_revision.task_session_id, task_intent_revision.parent_revision_id"))
  match tables.taskIntentRevision.insert ⟨taskSessionId, revisionOrdinal, revision⟩ with
  | some taskIntentRevision => pure { tables with taskIntentRevision }
  | none =>
      throw (sqlError "insert Task Intent revision" ("UNIQUE constraint failed: " ++
        "task_intent_revision.revision_id"))

def insertTaskSession (tables : Lineages) (row : TaskSessionRow) : Result Lineages := do
  Result.require (∀ other ∈ tables.taskSession.rows, other.taskId ≠ row.taskId)
    (sqlError "insert Task Session" "UNIQUE constraint failed: task_session.task_id")
  Result.require
    (∀ other ∈ tables.taskSession.rows, other.externalSessionId = row.externalSessionId →
      other.taskOrdinal ≠ row.taskOrdinal)
    (sqlError "insert Task Session" ("UNIQUE constraint failed: " ++
      "task_session.external_session_id, task_session.task_ordinal"))
  match tables.taskSession.insert row with
  | some taskSession => pure { tables with taskSession }
  | none =>
      throw (sqlError "insert Task Session" ("UNIQUE constraint failed: " ++
        "task_session.task_session_id"))

def insertTask (db : RuntimeDatabase) (externalSessionId : ExternalSessionId)
    (taskOrdinal : Nat) (snapshot : TaskSessionSnapshot) : Result RuntimeDatabase := do
  snapshot.validate text
  match snapshot.currentIntentRevision with
  | none => throw (invariantViolation "initial Task has no Intent revision")
  | some revision =>
      let tables ← insertTaskSession db.lineages
        ⟨snapshot.taskSessionId, externalSessionId, snapshot.taskId, revision.revisionId,
          taskOrdinal⟩
      let tables ← insertIntentRevision tables snapshot.taskSessionId 0 revision
      let inserted :=
        insertSignals { db with lineages := tables } snapshot.taskSessionId snapshot.taskSignals
      let _ ← requireSnapshot text inserted snapshot.taskSessionId
      pure inserted

def nextTaskOrdinal (tables : Lineages) (externalSessionId : ExternalSessionId) : Result Nat := do
  let next := ((tables.taskSession.rows.filter fun row =>
    row.externalSessionId = externalSessionId).map (·.taskOrdinal + 1)).foldr max 0
  Result.require (next < ordinalBound) (sqlError "read next Task ordinal" "integer overflow")
  pure next

def requireExpectedActive (actual expected : TaskId) : Result Unit :=
  Result.require (actual = expected)
    (invalid "expected_active_task_id does not match the ExternalSession ActiveTask")

/-- Select a Task, provided the External Session still has the expected one active. -/
def compareAndSwitch (tables : Lineages) (externalSessionId : ExternalSessionId)
    (expectedActiveTaskId : TaskId) (targetTaskSessionId : TaskSessionId)
    (targetTaskId : TaskId) : Result Lineages := do
  let matched (row : ExternalSessionRow) : Bool :=
    row.externalSessionId = externalSessionId ∧ row.activeTaskId = expectedActiveTaskId
  Result.require (tables.externalSession.rows.countP matched = 1)
    (invalid "expected_active_task_id became stale")
  pure { tables with
    externalSession := tables.externalSession.updateWhere matched
      (fun row =>
        { row with activeTaskSessionId := targetTaskSessionId, activeTaskId := targetTaskId })
      (fun _ => rfl) }

/-- Appends one successor revision and advances the owning Task Head. -/
def appendRevisionInTransaction (tables : Lineages) (revisionId : TaskIntentRevisionId)
    (taskSessionId : TaskSessionId) (current : TaskIntentRevision)
    (workingIntent : WorkingIntentSnapshot) : Result (Lineages × TaskIntentRevision) := do
  let revision ← TaskIntentRevision.successor text revisionId current workingIntent
  let ordinal ← readRevisionOrdinal tables current.revisionId
  Result.require (ordinal + 1 < ordinalBound)
    (invariantViolation "Task Intent revision ordinal overflow")
  let tables ← insertIntentRevision tables taskSessionId (ordinal + 1) revision
  let matched (row : TaskSessionRow) : Bool :=
    row.taskSessionId = taskSessionId ∧ row.currentIntentRevisionId = current.revisionId
  Result.require (tables.taskSession.rows.countP matched = 1)
    (invariantViolation "Task Intent Head changed inside write transaction")
  pure
    ({ tables with
        taskSession := tables.taskSession.updateWhere matched
          (fun row => { row with currentIntentRevisionId := revision.revisionId })
          (fun _ => rfl) },
      revision)

/-- The refusal of a parent that is not the Head of the active Task. -/
def rejectInvalidParent (tables : Lineages) (taskSessionId : TaskSessionId) (taskId : TaskId)
    (parentRevisionId : TaskIntentRevisionId) : Error :=
  match readIntentRevisionOwner tables parentRevisionId with
  | some owner =>
      if owner.taskSession ≠ taskSessionId ∨ owner.task ≠ taskId then
        invalid "Intent parent belongs to another Task Session"
      else
        stale "Intent parent is no longer the ActiveTask current Head"
  | none => stale "Intent parent is stale: unknown or no longer retained"

end Writing

/-! ### The operations -/

inductive IntentRevisionWriteStatus
  | created
  | alreadyCurrent
  | forked
  deriving DecidableEq, Repr

structure OpenSessionOutcome where
  snapshot : TaskSessionSnapshot
  created : Bool
  deriving DecidableEq, Repr

structure StartNewTaskOutcome where
  externalSessionId : ExternalSessionId
  previousTaskId : TaskId
  snapshot : TaskSessionSnapshot
  deriving DecidableEq, Repr

structure SwitchActiveTaskOutcome where
  externalSessionId : ExternalSessionId
  previousTaskId : TaskId
  snapshot : TaskSessionSnapshot
  switched : Bool
  deriving DecidableEq, Repr

structure AppendIntentRevisionOutcome where
  revision : TaskIntentRevision
  status : IntentRevisionWriteStatus
  deriving DecidableEq, Repr

structure ContinueWorkingIntentOutcome where
  snapshot : TaskSessionSnapshot
  revision : TaskIntentRevision
  status : IntentRevisionWriteStatus
  activeTaskSwitched : Bool
  deriving DecidableEq, Repr

structure NewIds where
  externalSessionId : ExternalSessionId
  taskSessionId : TaskSessionId
  taskId : TaskId
  revisionId : TaskIntentRevisionId
  deriving DecidableEq, Repr

section Operations

variable (text : IntentText)

def requireExternalIdentity (tables : Lineages) (locator : ExternalSessionLocator) :
    Result ExternalSessionRow :=
  match readExternalIdentity tables locator with
  | some external => .ok external
  | none => .error (invalid "ExternalSessionLocator does not identify a runtime Session")

/-- Opens the ActiveTask or creates an External Session with its first Task. -/
def openOrCreate (db : RuntimeDatabase) (ids : NewIds) (locator : ExternalSessionLocator)
    (taskId : TaskId) (initialIntent : WorkingIntentSnapshot) (signals : List TaskSignal) :
    Result (RuntimeDatabase × OpenSessionOutcome) := do
  locator.validate
  initialIntent.validate text
  let requestedHash ← initialIntent.canonicalSemanticHash text
  let signals ← normalizeSignals signals
  match findActiveTaskByLocator db.lineages locator with
  | some taskSessionId =>
      let snapshot ← requireSnapshot text db taskSessionId
      match snapshot.currentIntentRevision with
      | none => throw (invariantViolation "existing ActiveTask has no Working Intent Head")
      | some current =>
          Result.require
            (snapshot.intentRevisions.length = 1 ∧ current.parentRevisionId = none ∧
              current.semanticHash = requestedHash)
            ⟨.conflict, ("ExternalSession was concurrently initialized with different Working " ++
              "Intent; read the current Revision and retry explicit new with CAS")⟩
          pure (db, ⟨snapshot, false⟩)
  | none =>
      let (db, signals) ← withBackfilledPrompts db locator signals
      let snapshot ← TaskSessionSnapshot.fromInitial text ids.taskSessionId ids.revisionId
        locator taskId initialIntent signals
      let tables ← insertExternalSession db.lineages ids.externalSessionId locator snapshot
      let db ← insertTask text { db with lineages := tables } ids.externalSessionId 0 snapshot
      let persisted ← requireSnapshot text db snapshot.taskSessionId
      pure (db, ⟨persisted, true⟩)

/-- Explicitly creates and activates a new runtime-owned Task. -/
def startNewTask (db : RuntimeDatabase) (ids : NewIds) (locator : ExternalSessionLocator)
    (expectedActiveTaskId : TaskId) (initialIntent : WorkingIntentSnapshot)
    (signals : List TaskSignal) : Result (RuntimeDatabase × StartNewTaskOutcome) := do
  locator.validate
  initialIntent.validate text
  let signals ← normalizeSignals signals
  let external ← requireExternalIdentity db.lineages locator
  requireExpectedActive external.activeTaskId expectedActiveTaskId
  let (db, signals) ← withBackfilledPrompts db locator signals
  let snapshot ← TaskSessionSnapshot.fromInitial text ids.taskSessionId ids.revisionId locator
    ids.taskId initialIntent signals
  let ordinal ← nextTaskOrdinal db.lineages external.externalSessionId
  let db ← insertTask text db external.externalSessionId ordinal snapshot
  let tables ← compareAndSwitch db.lineages external.externalSessionId expectedActiveTaskId
    snapshot.taskSessionId snapshot.taskId
  let db := { db with lineages := tables }
  let persisted ← requireSnapshot text db snapshot.taskSessionId
  pure (db, ⟨external.externalSessionId, expectedActiveTaskId, persisted⟩)

def switchActiveTask (db : RuntimeDatabase) (locator : ExternalSessionLocator)
    (expectedActiveTaskId targetTaskId : TaskId) :
    Result (RuntimeDatabase × SwitchActiveTaskOutcome) := do
  locator.validate
  let external ← requireExternalIdentity db.lineages locator
  requireExpectedActive external.activeTaskId expectedActiveTaskId
  match findTaskInExternalSession db.lineages external.externalSessionId targetTaskId with
  | none => throw (invalid "target_task_id is not retained by this ExternalSession")
  | some targetTaskSessionId =>
      let switched : Bool := targetTaskId ≠ expectedActiveTaskId
      let tables ←
        (if switched then
          compareAndSwitch db.lineages external.externalSessionId expectedActiveTaskId
            targetTaskSessionId targetTaskId
        else
          pure db.lineages)
      let db := { db with lineages := tables }
      let snapshot ← requireSnapshot text db targetTaskSessionId
      pure (db, ⟨external.externalSessionId, expectedActiveTaskId, snapshot, switched⟩)

/-- Appends one Intent revision only to the current ActiveTask. -/
def appendIntentRevision (db : RuntimeDatabase) (ids : NewIds) (taskSessionId : TaskSessionId)
    (parentRevisionId : TaskIntentRevisionId) (workingIntent : WorkingIntentSnapshot) :
    Result (RuntimeDatabase × AppendIntentRevisionOutcome) := do
  workingIntent.validate text
  let semanticHash ← workingIntent.canonicalSemanticHash text
  match readActiveTaskHead db.lineages taskSessionId with
  | none =>
      throw (invalid "task_session_id does not identify the ExternalSession ActiveTask")
  | some (taskId, currentRevisionId) =>
      let current ← readIntentRevision text db.lineages currentRevisionId
      if parentRevisionId ≠ currentRevisionId then
        Result.require
          (current.parentRevisionId = some parentRevisionId ∧
            current.semanticHash = semanticHash)
          (rejectInvalidParent db.lineages taskSessionId taskId parentRevisionId)
        pure (db, ⟨current, .alreadyCurrent⟩)
      else if current.semanticHash = semanticHash then
        pure (db, ⟨current, .alreadyCurrent⟩)
      else
        let (tables, revision) ← appendRevisionInTransaction text db.lineages ids.revisionId
          taskSessionId current workingIntent
        pure ({ db with lineages := tables }, ⟨revision, .created⟩)

/-- The lineage a continued Working Intent belongs to, before it is selected. -/
structure ContinuedLineage where
  db : RuntimeDatabase
  taskSessionId : TaskSessionId
  taskId : TaskId
  revision : TaskIntentRevision
  status : IntentRevisionWriteStatus

/-- The branches of `continueWorkingIntent`: the parent is the Head of its Task
(unchanged or extended), or its replacement is the request, or the replacement
states another goal and the request forks a Task. -/
def continueLineage (db : RuntimeDatabase) (ids : NewIds) (locator : ExternalSessionLocator)
    (externalSessionId : ExternalSessionId) (owner : IntentRevisionOwner)
    (head : TaskIntentRevision) (parentRevisionId : TaskIntentRevisionId)
    (workingIntent : WorkingIntentSnapshot) (semanticHash : String) :
    Result ContinuedLineage :=
  if owner.headRevision = parentRevisionId then
    if head.semanticHash = semanticHash then
      pure ⟨db, owner.taskSession, owner.task, head, .alreadyCurrent⟩
    else do
      let (tables, revision) ← appendRevisionInTransaction text db.lineages ids.revisionId
        owner.taskSession head workingIntent
      pure ⟨{ db with lineages := tables }, owner.taskSession, owner.task, revision, .created⟩
  else if head.parentRevisionId = some parentRevisionId ∧ head.semanticHash = semanticHash then
    pure ⟨db, owner.taskSession, owner.task, head, .alreadyCurrent⟩
  else if normalizedGoal text workingIntent.goal =
      normalizedGoal text head.workingIntent.goal then
    throw (stale "Intent parent is no longer the current Head of its Task lineage")
  else do
    let forked ← TaskSessionSnapshot.fromInitial text ids.taskSessionId ids.revisionId locator
      ids.taskId workingIntent []
    let ordinal ← nextTaskOrdinal db.lineages externalSessionId
    let db ← insertTask text db externalSessionId ordinal forked
    match forked.currentIntentRevision with
    | none => throw (invariantViolation "forked TaskSession has no Working Intent Head")
    | some revision => pure ⟨db, forked.taskSessionId, ids.taskId, revision, .forked⟩

/-- Continues one Working Intent lineage owned by this External Session. -/
def continueWorkingIntent (db : RuntimeDatabase) (ids : NewIds)
    (locator : ExternalSessionLocator) (parentRevisionId : TaskIntentRevisionId)
    (workingIntent : WorkingIntentSnapshot) :
    Result (RuntimeDatabase × ContinueWorkingIntentOutcome) := do
  locator.validate
  workingIntent.validate text
  let semanticHash ← workingIntent.canonicalSemanticHash text
  let external ← requireExternalIdentity db.lineages locator
  match readIntentRevisionOwner db.lineages parentRevisionId with
  | none => throw (stale "Intent parent is stale: unknown or no longer retained")
  | some owner =>
      Result.require (owner.externalSession = external.externalSessionId)
        (invalid "Intent parent belongs to another Task Session")
      let head ← readIntentRevision text db.lineages owner.headRevision
      let lineage ← continueLineage text db ids locator external.externalSessionId owner head
        parentRevisionId workingIntent semanticHash
      let tables ← compareAndSwitch lineage.db.lineages external.externalSessionId
        external.activeTaskId lineage.taskSessionId lineage.taskId
      let db := { lineage.db with lineages := tables }
      let snapshot ← requireSnapshot text db lineage.taskSessionId
      pure (db, ⟨snapshot, lineage.revision, lineage.status,
        external.activeTaskId ≠ lineage.taskId⟩)

end Operations

end SharedContext
