import Mathlib.Data.List.DropRight
import SharedContext.Library.FirstOccurrences
import SharedContext.TaskRuntime.LineageRuns
import SharedContext.TaskRuntime.PromptStash

/-!
# Prompts that become Signals

A call that creates a Task for a Session takes all its pending prompts: trimmed
and without repeats they are the first Signals of the Task, before its own.
Every other call leaves the stash and the Signals alone.
-/

namespace SharedContext

/-! ### Normalized Signals -/

theorem trim_trim (value : String) : trim (trim value) = trim value := by
  simp only [trim, String.toList_ofList]
  change String.ofList (((value.toList.dropWhile isWhiteSpace).rdropWhile isWhiteSpace).dropWhile
    isWhiteSpace |>.rdropWhile isWhiteSpace) = String.ofList _
  have frontTrimmed : ((value.toList.dropWhile isWhiteSpace).rdropWhile isWhiteSpace).dropWhile
      isWhiteSpace = (value.toList.dropWhile isWhiteSpace).rdropWhile isWhiteSpace := by
    cases trimmed : (value.toList.dropWhile isWhiteSpace).rdropWhile isWhiteSpace with
    | nil => rfl
    | cons first rest =>
        have isPrefix := List.rdropWhile_prefix isWhiteSpace (value.toList.dropWhile isWhiteSpace)
        rw [trimmed] at isPrefix
        obtain ⟨suffix, whole⟩ := isPrefix
        have plain := List.head_dropWhile_not isWhiteSpace
          (l := value.toList) (by rw [← whole]; simp)
        simp only [← whole, List.cons_append, List.head_cons] at plain
        simp [plain]
  rw [frontTrimmed, List.rdropWhile_idempotent]
  rfl

def TaskSignal.trimmed (signal : TaskSignal) : TaskSignal :=
  ⟨signal.kind, trim signal.content⟩

@[simp]
theorem TaskSignal.trimmed_trimmed (signal : TaskSignal) :
    signal.trimmed.trimmed = signal.trimmed := by
  simp [trimmed, trim_trim]

theorem normalizeSignalsFrom_eq_ok {kept signals normalized : List TaskSignal} :
    normalizeSignalsFrom kept signals = .ok normalized ↔
      (∀ signal ∈ signals, signal.trimmed.validate = .ok ()) ∧
        normalized = appendNew kept (signals.map TaskSignal.trimmed) := by
  induction signals generalizing kept with
  | nil =>
      rw [normalizeSignalsFrom, Result.pure_eq_ok]
      simp [eq_comm]
  | cons signal rest ih =>
      rw [normalizeSignalsFrom, Result.seq_eq_ok, ih, List.forall_mem_cons, List.map_cons,
        appendNew_cons, and_assoc]
      rfl

theorem normalized_trimmed {signals normalized : List TaskSignal}
    (ran : normalizeSignals signals = .ok normalized) :
    normalized.map TaskSignal.trimmed = normalized ∧ normalized.Nodup := by
  obtain ⟨_, rfl⟩ := normalizeSignalsFrom_eq_ok.mp ran
  constructor
  · conv_rhs => rw [← List.map_id (appendNew _ _)]
    apply List.map_congr_left
    intro signal member
    have fromTrimmed := (mem_appendNew.mp member).resolve_left List.not_mem_nil
    obtain ⟨raw, _, rfl⟩ := List.mem_map.mp fromTrimmed
    exact raw.trimmed_trimmed
  · exact nodup_appendNew List.nodup_nil _

def promptSignal (content : String) : TaskSignal :=
  ⟨.prompt, trim content⟩

/-- The Signals of a new Task: the held prompts in written order, without
repeats, and then those of its own that are no repeat of a prompt. -/
def Backfilled (held : List String) (own signals : List TaskSignal) : Prop :=
  ∃ front, front.Sublist (held.map promptSignal) ∧
    (∀ content ∈ held, promptSignal content ∈ front) ∧
    signals = front ++ own.filter (· ∉ front)

theorem withBackfilledPrompts_ok {db after : RuntimeDatabase} {locator : ExternalSessionLocator}
    {signals own backfilled : List TaskSignal} (normalized : normalizeSignals signals = .ok own)
    (ran : withBackfilledPrompts db locator own = .ok (after, backfilled)) :
    after.taskSignal = db.taskSignal ∧
      after.pendingPromptSignal =
        db.pendingPromptSignal.filter (fun prompt => prompt.locator ≠ locator) ∧
      backfilled.Nodup ∧
      Backfilled (readPendingPrompts db.pendingPromptSignal locator) own backfilled := by
  obtain ⟨ownTrimmed, ownNodup⟩ := normalized_trimmed normalized
  simp only [withBackfilledPrompts] at ran
  split at ran
  · rename_i empty
    cases ran
    have noneHeld : readPendingPrompts db.pendingPromptSignal locator = [] := by
      simpa using empty
    refine ⟨rfl, ?_, ownNodup, [], by simp, by simp [noneHeld], by simp⟩
    have noRows : ∀ prompt ∈ db.pendingPromptSignal, prompt.locator ≠ locator := by
      intro prompt member here
      have inSession : prompt ∈ db.pendingPromptSignal.filter
          fun other => other.locator = locator := List.mem_filter.mpr ⟨member, by simp [here]⟩
      have read := (List.mem_insertionSort
        (fun first second => first.promptOrdinal ≤ second.promptOrdinal)).mpr inSession
      have content := List.mem_map_of_mem (f := PendingPrompt.content) read
      rw [readPendingPrompts] at noneHeld
      rw [noneHeld] at content
      exact List.not_mem_nil content
    exact (List.filter_eq_self.mpr fun prompt member => by simpa using noRows prompt member).symm
  · obtain ⟨whole, ran, made⟩ := Result.bind_eq_ok.mp ran
    cases made
    obtain ⟨_, rfl⟩ := normalizeSignalsFrom_eq_ok.mp ran
    refine ⟨rfl, rfl, nodup_appendNew List.nodup_nil _, ?_⟩
    rw [List.map_append, ownTrimmed, appendNew_append]
    obtain ⟨front, frontEq, sublist⟩ := exists_appendNew_eq []
      (((readPendingPrompts db.pendingPromptSignal locator).map fun content =>
        TaskSignal.mk .prompt content).map TaskSignal.trimmed)
    rw [List.map_map] at sublist
    refine ⟨_, ?_, ?_, appendNew_of_nodup ownNodup _⟩
    · rw [frontEq, List.nil_append]
      exact sublist
    · intro content member
      refine mem_appendNew.mpr (Or.inr (List.mem_map.mpr ?_))
      exact ⟨⟨.prompt, content⟩, List.mem_map_of_mem member, rfl⟩

/-! ### The Signals of a Task -/

/-- Every Signal belongs to a Task. -/
def SignalsOwned (db : RuntimeDatabase) : Prop :=
  ∀ row ∈ db.taskSignal, ∃ task ∈ db.lineages.taskSession, task.taskSessionId = row.taskSessionId

theorem insertSignals_cases (db : RuntimeDatabase) (taskSessionId : TaskSessionId)
    (signals : List TaskSignal) :
    (insertSignals db taskSessionId signals).pendingPromptSignal = db.pendingPromptSignal ∧
      (∀ row ∈ (insertSignals db taskSessionId signals).taskSignal,
        row ∈ db.taskSignal ∨ row.taskSessionId = taskSessionId) ∧
      readActiveTaskSignals (insertSignals db taskSessionId signals) taskSessionId =
        appendNew (readActiveTaskSignals db taskSessionId) signals := by
  induction signals generalizing db with
  | nil => exact ⟨rfl, fun row member => Or.inl member, rfl⟩
  | cons signal rest ih =>
      simp only [insertSignals, List.foldl_cons] at ih ⊢
      rw [appendNew_cons]
      split
      · exact ih db
      · obtain ⟨samePrompts, fromTask, read⟩ := ih
          { db with taskSignal := db.taskSignal ++ [⟨taskSessionId, signal, .active⟩] }
        refine ⟨samePrompts, ?_, ?_⟩
        · intro row member
          rcases fromTask row member with earlier | ofTask
          · rcases List.mem_append.mp earlier with old | new
            · exact Or.inl old
            · exact Or.inr (by rw [List.mem_singleton.mp new])
          · exact Or.inr ofTask
        · rw [read]
          simp [readActiveTaskSignals]

theorem readActiveTaskSignals_eq_nil {db : RuntimeDatabase} (owned : SignalsOwned db)
    {taskSessionId : TaskSessionId}
    (fresh : ∀ task ∈ db.lineages.taskSession, task.taskSessionId ≠ taskSessionId) :
    readActiveTaskSignals db taskSessionId = [] := by
  rw [readActiveTaskSignals, List.map_eq_nil_iff, List.filter_eq_nil_iff]
  intro row member
  obtain ⟨task, taskMem, same⟩ := owned row member
  have distinct := fresh task taskMem
  rw [same] at distinct
  simp [distinct]

theorem insertTask_signals {text : IntentText} {db after : RuntimeDatabase}
    {externalSessionId : ExternalSessionId} {taskOrdinal : Nat} {snapshot : TaskSessionSnapshot}
    (inserted : insertTask text db externalSessionId taskOrdinal snapshot = .ok after) :
    after.pendingPromptSignal = db.pendingPromptSignal ∧
      (∀ row ∈ after.taskSignal,
        row ∈ db.taskSignal ∨ row.taskSessionId = snapshot.taskSessionId) ∧
      readActiveTaskSignals after snapshot.taskSessionId =
        appendNew (readActiveTaskSignals db snapshot.taskSessionId) snapshot.taskSignals := by
  rw [insertTask, Result.seq_eq_ok] at inserted
  obtain ⟨_, inserted⟩ := inserted
  split at inserted
  case h_1 => cases inserted
  case h_2 revision _ =>
    simp only [Result.bind_eq_ok, Result.pure_eq_ok] at inserted
    obtain ⟨withTask, _, withRevision, _, _, _, rfl⟩ := inserted
    exact insertSignals_cases { db with lineages := withRevision } _ _

theorem insertTask_without_signals {text : IntentText} {db after : RuntimeDatabase}
    {externalSessionId : ExternalSessionId} {taskOrdinal : Nat} {snapshot : TaskSessionSnapshot}
    (inserted : insertTask text db externalSessionId taskOrdinal snapshot = .ok after)
    (none : snapshot.taskSignals = []) : after.taskSignal = db.taskSignal := by
  rw [insertTask, Result.seq_eq_ok] at inserted
  obtain ⟨_, inserted⟩ := inserted
  split at inserted
  case h_1 => cases inserted
  case h_2 revision _ =>
    simp only [Result.bind_eq_ok, Result.pure_eq_ok, none] at inserted
    obtain ⟨withTask, _, withRevision, _, _, _, rfl⟩ := inserted
    rfl

/-! ### Calls that create a Task -/

/-- What a call does that creates a Task for a Session, given Signals of its own. -/
structure TaskCreated (db after : RuntimeDatabase) (locator : ExternalSessionLocator)
    (signals : List TaskSignal) (snapshot : TaskSessionSnapshot) : Prop where
  drained : after.pendingPromptSignal =
    db.pendingPromptSignal.filter fun prompt => prompt.locator ≠ locator
  rows : ∀ row ∈ after.taskSignal,
    row ∈ db.taskSignal ∨ row.taskSessionId = snapshot.taskSessionId
  retained : ∃ task ∈ after.lineages.taskSession, task.taskSessionId = snapshot.taskSessionId
  delivered : SignalsOwned db → ∃ own, normalizeSignals signals = .ok own ∧
    Backfilled (readPendingPrompts db.pendingPromptSignal locator) own snapshot.taskSignals

/-- What every other call does: prompts and Signals stay. -/
structure SignalsKept (db after : RuntimeDatabase) : Prop where
  prompts : after.pendingPromptSignal = db.pendingPromptSignal
  signals : after.taskSignal = db.taskSignal

section Calls

variable {text : IntentText} {db after : RuntimeDatabase}

theorem taskCreated_of_insert {drained inserted : RuntimeDatabase} {tables : Lineages}
    {locator : ExternalSessionLocator} {signals own backfilled : List TaskSignal}
    {externalSessionId : ExternalSessionId} {taskOrdinal : Nat} {taskSessionId : TaskSessionId}
    {taskId : TaskId} {revision : TaskIntentRevision} {persisted : TaskSessionSnapshot}
    (normalized : normalizeSignals signals = .ok own)
    (prompts : withBackfilledPrompts db locator own = .ok (drained, backfilled))
    (sameSessions : tables.taskSession = db.lineages.taskSession)
    (taskInserted : insertTask text { drained with lineages := tables } externalSessionId
      taskOrdinal ⟨taskSessionId, taskId, locator, [revision], backfilled⟩ = .ok inserted)
    (initial : revision.parentRevisionId = none)
    (kept : SignalsKept inserted after) (grows : inserted.lineages.Grows after.lineages)
    (read : requireSnapshot text after taskSessionId = .ok persisted) :
    TaskCreated db after locator signals persisted := by
  obtain ⟨sameSignals, drainedEq, distinct, backfill⟩ := withBackfilledPrompts_ok normalized prompts
  obtain ⟨samePrompts, rows, active⟩ := insertTask_signals taskInserted
  have added := insertTask_ok taskInserted initial
  obtain ⟨sameId, _, shownSignals⟩ := requireSnapshot_shows read
  refine ⟨?_, ?_, ?_, ?_⟩
  · rw [kept.prompts, samePrompts]
    exact drainedEq
  · intro row member
    rw [kept.signals] at member
    rw [sameId]
    exact (rows row member).imp_left fun old => sameSignals ▸ old
  · obtain ⟨task, taskMem, _, same, _⟩ := grows.retains _ _ _ added.retains
    rw [sameId]
    exact ⟨task, taskMem, same⟩
  · intro owned
    refine ⟨own, normalized, ?_⟩
    have fresh : ∀ task ∈ db.lineages.taskSession, task.taskSessionId ≠ taskSessionId := by
      rw [← sameSessions]
      exact added.fresh
    have noneBefore : readActiveTaskSignals { drained with lineages := tables } taskSessionId =
        [] := by
      have none := readActiveTaskSignals_eq_nil owned fresh
      rw [readActiveTaskSignals] at none ⊢
      rwa [sameSignals]
    have allSignals : persisted.taskSignals = backfilled := by
      rw [shownSignals, readActiveTaskSignals, kept.signals]
      rw [readActiveTaskSignals] at active
      rw [active, noneBefore, appendNew_of_nodup distinct]
      simp
    rw [allSignals]
    exact backfill

theorem openOrCreate_prompts {ids : NewIds} {locator : ExternalSessionLocator} {taskId : TaskId}
    {initialIntent : WorkingIntentSnapshot} {signals : List TaskSignal}
    {outcome : OpenSessionOutcome}
    (ran : openOrCreate text db ids locator taskId initialIntent signals = .ok (after, outcome)) :
    if outcome.created then TaskCreated db after locator signals outcome.snapshot
    else SignalsKept db after := by
  simp only [openOrCreate, Result.bind_eq_ok, Result.exists_unit] at ran
  obtain ⟨_, _, _, _, own, normalized, ran⟩ := ran
  split at ran
  case h_1 taskSessionId found =>
    simp only [Result.bind_eq_ok] at ran
    obtain ⟨snapshot, read, ran⟩ := ran
    split at ran
    case h_1 => cases ran
    case h_2 current isCurrent =>
      simp only [Result.bind_eq_ok, Result.exists_unit, Result.pure_eq_ok] at ran
      obtain ⟨_, made⟩ := ran
      cases made
      exact ⟨rfl, rfl⟩
  case h_2 =>
    simp only [Result.bind_eq_ok, Result.pure_eq_ok, Prod.exists] at ran
    obtain ⟨drained, backfilled, prompts, snapshot, initial, tables, externalAdded, inserted,
      taskInserted, persisted, read, made⟩ := ran
    cases made
    have snapshotEq := fromInitial_ok initial
    subst snapshotEq
    have sameSessions := (insertExternalSession_ok externalAdded).1
    rw [withBackfilledPrompts_lineages prompts] at sameSessions
    exact taskCreated_of_insert normalized prompts sameSessions taskInserted rfl ⟨rfl, rfl⟩
      (Lineages.Grows.refl _) read

theorem startNewTask_prompts {ids : NewIds} {locator : ExternalSessionLocator}
    {expectedActiveTaskId : TaskId} {initialIntent : WorkingIntentSnapshot}
    {signals : List TaskSignal} {outcome : StartNewTaskOutcome}
    (ran : startNewTask text db ids locator expectedActiveTaskId initialIntent signals =
      .ok (after, outcome)) :
    TaskCreated db after locator signals outcome.snapshot := by
  simp only [startNewTask, Result.bind_eq_ok, Result.exists_unit, Result.pure_eq_ok,
    Prod.exists, requireExternalIdentity_eq_ok] at ran
  obtain ⟨_, _, own, normalized, external, _, _, drained, backfilled, prompts, snapshot,
    initial, ordinal, _, inserted, taskInserted, tables, switched, persisted, read, made⟩ := ran
  cases made
  have snapshotEq := fromInitial_ok initial
  subst snapshotEq
  have sameSessions : drained.lineages.taskSession = db.lineages.taskSession := by
    rw [withBackfilledPrompts_lineages prompts]
  exact taskCreated_of_insert normalized prompts sameSessions taskInserted rfl ⟨rfl, rfl⟩
    (compareAndSwitch_ok switched).grows read

theorem switchActiveTask_prompts {locator : ExternalSessionLocator}
    {expectedActiveTaskId targetTaskId : TaskId} {outcome : SwitchActiveTaskOutcome}
    (ran : switchActiveTask text db locator expectedActiveTaskId targetTaskId =
      .ok (after, outcome)) : SignalsKept db after := by
  simp only [switchActiveTask, Result.bind_eq_ok, Result.exists_unit] at ran
  obtain ⟨_, external, _, _, ran⟩ := ran
  split at ran
  case h_1 => cases ran
  case h_2 targetTaskSessionId found =>
    simp only [Result.bind_eq_ok, Result.pure_eq_ok] at ran
    obtain ⟨tables, _, snapshot, _, made⟩ := ran
    cases made
    exact ⟨rfl, rfl⟩

theorem appendIntentRevision_prompts {ids : NewIds} {taskSessionId : TaskSessionId}
    {parentRevisionId : TaskIntentRevisionId} {workingIntent : WorkingIntentSnapshot}
    {outcome : AppendIntentRevisionOutcome}
    (ran : appendIntentRevision text db ids taskSessionId parentRevisionId workingIntent =
      .ok (after, outcome)) : SignalsKept db after := by
  simp only [appendIntentRevision, Result.bind_eq_ok, Result.exists_unit] at ran
  obtain ⟨_, _, _, ran⟩ := ran
  split at ran
  case h_1 => cases ran
  case h_2 taskId currentRevisionId found =>
    simp only [Result.bind_eq_ok] at ran
    obtain ⟨current, _, ran⟩ := ran
    split at ran
    · simp only [Result.bind_eq_ok, Result.exists_unit, Result.pure_eq_ok] at ran
      obtain ⟨_, made⟩ := ran
      cases made
      exact ⟨rfl, rfl⟩
    · split at ran
      · cases ran
        exact ⟨rfl, rfl⟩
      · simp only [Result.bind_eq_ok, Result.pure_eq_ok, Prod.exists] at ran
        obtain ⟨tables, revision, _, made⟩ := ran
        cases made
        exact ⟨rfl, rfl⟩

theorem continueWorkingIntent_prompts {ids : NewIds} {locator : ExternalSessionLocator}
    {parentRevisionId : TaskIntentRevisionId} {workingIntent : WorkingIntentSnapshot}
    {outcome : ContinueWorkingIntentOutcome}
    (ran : continueWorkingIntent text db ids locator parentRevisionId workingIntent =
      .ok (after, outcome)) : SignalsKept db after := by
  obtain ⟨_, _, external, owner, head, lineage, _, _, _, _, placed, _, afterEq, _, _⟩ :=
    continueWorkingIntent_ok ran
  rw [afterEq]
  cases continueLineage_ok placed with
  | alreadyCurrent => exact ⟨rfl, rfl⟩
  | created => exact ⟨rfl, rfl⟩
  | forked _ _ added =>
      have sameSignals := insertTask_without_signals added
      exact ⟨(insertTask_signals added).1, sameSignals rfl⟩

/-- The Session, the own Signals and the Task of a call that created one. -/
def createdTask : LineageCall → LineageAnswer →
    Option (ExternalSessionLocator × List TaskSignal × TaskSessionSnapshot)
  | .openOrCreate _ locator _ _ signals, .opened outcome =>
      if outcome.created then some (locator, signals, outcome.snapshot) else none
  | .startNewTask _ locator _ _ signals, .started outcome =>
      some (locator, signals, outcome.snapshot)
  | _, _ => none

theorem performCall_prompts {call : LineageCall} {answer : LineageAnswer}
    (ran : performCall text db call = .ok (after, answer)) :
    match createdTask call answer with
    | some (locator, signals, snapshot) => TaskCreated db after locator signals snapshot
    | none => SignalsKept db after := by
  cases call with
  | openOrCreate ids locator taskId initialIntent signals =>
      obtain ⟨⟨_, outcome⟩, performed, answerEq⟩ := Result.map_eq_ok.mp ran
      cases answerEq
      have prompts := openOrCreate_prompts performed
      cases created : outcome.created <;> simpa [createdTask, created] using prompts
  | startNewTask ids locator expectedActiveTaskId initialIntent signals =>
      obtain ⟨⟨_, outcome⟩, performed, answerEq⟩ := Result.map_eq_ok.mp ran
      cases answerEq
      exact startNewTask_prompts performed
  | switchActiveTask locator expectedActiveTaskId targetTaskId =>
      obtain ⟨⟨_, outcome⟩, performed, answerEq⟩ := Result.map_eq_ok.mp ran
      cases answerEq
      exact switchActiveTask_prompts performed
  | appendIntentRevision ids taskSessionId parentRevisionId workingIntent =>
      obtain ⟨⟨_, outcome⟩, performed, answerEq⟩ := Result.map_eq_ok.mp ran
      cases answerEq
      exact appendIntentRevision_prompts performed
  | continueWorkingIntent ids locator parentRevisionId workingIntent =>
      obtain ⟨⟨_, outcome⟩, performed, answerEq⟩ := Result.map_eq_ok.mp ran
      cases answerEq
      exact continueWorkingIntent_prompts performed

theorem signalsOwned_performCall {call : LineageCall} {answer : LineageAnswer}
    (ran : performCall text db call = .ok (after, answer))
    (consistent : db.lineages.Consistent) (owned : SignalsOwned db) : SignalsOwned after := by
  have grows := (performCall_ok ran consistent).1.grows
  have stillOwned : ∀ row ∈ db.taskSignal, ∃ task ∈ after.lineages.taskSession,
      task.taskSessionId = row.taskSessionId := by
    intro row member
    obtain ⟨task, taskMem, same⟩ := owned row member
    obtain ⟨later, laterMem, _, sameLater, _⟩ := grows.retains task.externalSessionId
      task.taskSessionId task.taskId ⟨task, taskMem, rfl, rfl, rfl⟩
    exact ⟨later, laterMem, sameLater.trans same⟩
  have prompts := performCall_prompts ran
  split at prompts
  · intro row member
    rcases prompts.rows row member with old | new
    · exact stillOwned row old
    · rw [new]
      exact prompts.retained
  · intro row member
    rw [prompts.signals] at member
    exact stillOwned row member

end Calls

end SharedContext
