import SharedContext.Domain.Ids
import SharedContext.Domain.WorkingIntent

/-!
# Task Sessions

The local runtime view of one Agent Task: its locator, the linear history of
its Intent revisions and the observed signals.  New identifiers are chosen by
the caller and passed in.
-/

namespace SharedContext

/-- External Agent coordinates used only to locate a local Task Session. -/
structure ExternalSessionLocator where
  agentKind : String
  externalSessionId : String
  deriving DecidableEq, Repr

def ExternalSessionLocator.validate (locator : ExternalSessionLocator) : Result Unit := do
  requireText locator.agentKind "external_session_locator.agent_kind"
  requireText locator.externalSessionId "external_session_locator.external_session_id"

/-- One immutable version of a Task's structured intent. -/
structure TaskIntentRevision where
  revisionId : TaskIntentRevisionId
  parentRevisionId : Option TaskIntentRevisionId
  workingIntent : WorkingIntentSnapshot
  semanticHash : String
  deriving DecidableEq, Repr

section Revisions

variable (text : IntentText)

namespace TaskIntentRevision

def initial (revisionId : TaskIntentRevisionId) (workingIntent : WorkingIntentSnapshot) :
    Result TaskIntentRevision := do
  workingIntent.validate text
  let semanticHash ← workingIntent.canonicalSemanticHash text
  pure { revisionId, parentRevisionId := none, workingIntent, semanticHash }

/-- Validates a revision without consulting a Session history. -/
def validate (revision : TaskIntentRevision) : Result Unit := do
  revision.workingIntent.validate text
  let semanticHash ← revision.workingIntent.canonicalSemanticHash text
  if revision.semanticHash ≠ semanticHash then
    throw (invalid "task_intent_revision semantic_hash must match Working Intent semantics")
  if revision.parentRevisionId = some revision.revisionId then
    throw (invalid "task_intent_revision cannot name itself as parent")

def successor (revisionId : TaskIntentRevisionId) (parent : TaskIntentRevision)
    (workingIntent : WorkingIntentSnapshot) : Result TaskIntentRevision := do
  parent.validate text
  workingIntent.validate text
  let semanticHash ← workingIntent.canonicalSemanticHash text
  pure { revisionId, parentRevisionId := some parent.revisionId, workingIntent, semanticHash }

theorem initial_eq_ok {revisionId : TaskIntentRevisionId}
    {workingIntent : WorkingIntentSnapshot} {revision : TaskIntentRevision} :
    initial text revisionId workingIntent = .ok revision ↔
      workingIntent.validate text = .ok () ∧
        revision = ⟨revisionId, none, workingIntent, workingIntent.semanticHash text⟩ := by
  rw [initial, Result.seq_eq_ok, Result.bind_eq_ok]
  simp only [WorkingIntentSnapshot.canonicalSemanticHash_eq_ok]
  constructor
  · rintro ⟨valid, _, ⟨_, rfl⟩, made⟩
    cases made
    exact ⟨valid, rfl⟩
  · rintro ⟨valid, rfl⟩
    exact ⟨valid, _, ⟨valid, rfl⟩, rfl⟩

theorem successor_eq_ok {revisionId : TaskIntentRevisionId} {parent : TaskIntentRevision}
    {workingIntent : WorkingIntentSnapshot} {revision : TaskIntentRevision} :
    successor text revisionId parent workingIntent = .ok revision ↔
      parent.validate text = .ok () ∧ workingIntent.validate text = .ok () ∧
        revision = ⟨revisionId, some parent.revisionId, workingIntent,
          workingIntent.semanticHash text⟩ := by
  rw [successor, Result.seq_eq_ok, Result.seq_eq_ok, Result.bind_eq_ok]
  simp only [WorkingIntentSnapshot.canonicalSemanticHash_eq_ok]
  constructor
  · rintro ⟨parentValid, valid, _, ⟨_, rfl⟩, made⟩
    cases made
    exact ⟨parentValid, valid, rfl⟩
  · rintro ⟨parentValid, valid, rfl⟩
    exact ⟨parentValid, valid, _, ⟨valid, rfl⟩, rfl⟩

theorem validate_of {revision : TaskIntentRevision}
    (intentValid : revision.workingIntent.validate text = .ok ())
    (hashEq : revision.semanticHash = revision.workingIntent.semanticHash text)
    (notSelf : revision.parentRevisionId ≠ some revision.revisionId) :
    revision.validate text = .ok () := by
  have hashed : revision.workingIntent.canonicalSemanticHash text =
      .ok revision.semanticHash :=
    (WorkingIntentSnapshot.canonicalSemanticHash_eq_ok text).mpr ⟨intentValid, hashEq⟩
  rw [validate, Result.seq_eq_ok, Result.bind_eq_ok]
  refine ⟨intentValid, revision.semanticHash, hashed, ?_⟩
  simp [notSelf]

end TaskIntentRevision

end Revisions

/-- Kinds of observable input that can inform an engineering Task. -/
inductive TaskSignalKind
  | prompt
  | workspace
  | diff
  | testOutcome
  deriving DecidableEq, Repr

/-- One observable input about the current Task. -/
structure TaskSignal where
  kind : TaskSignalKind
  content : String
  deriving DecidableEq, Repr

namespace TaskSignal

def validate (signal : TaskSignal) : Result Unit :=
  requireText signal.content "task_signal.content"

def validateCollection (signals : List TaskSignal) : Result Unit := do
  signals.forM validate
  requireUnique signals "task_signals"

end TaskSignal

/-- Complete local runtime snapshot for one Agent Task Session. -/
structure TaskSessionSnapshot where
  taskSessionId : TaskSessionId
  taskId : TaskId
  externalSessionLocator : ExternalSessionLocator
  intentRevisions : List TaskIntentRevision
  taskSignals : List TaskSignal
  deriving DecidableEq, Repr

namespace TaskSessionSnapshot

variable (text : IntentText)

def currentIntentRevision (snapshot : TaskSessionSnapshot) : Option TaskIntentRevision :=
  snapshot.intentRevisions.getLast?

/-- Check that revisions continue a parent chain, given the revisions seen
before, the expected parent and the position of the first one. -/
def validateChain (seen : List TaskIntentRevisionId) (expected : Option TaskIntentRevisionId)
    (index : Nat) : List TaskIntentRevision → Result Unit
  | [] => pure ()
  | revision :: rest => do
      revision.validate text
      if revision.revisionId ∈ seen then
        throw (invalid "task_session.intent_revisions must not repeat a revision")
      if revision.parentRevisionId ≠ expected then
        throw (invalid
          s!"task_session.intent_revisions[{index}] must continue the parent chain")
      validateChain (revision.revisionId :: seen) (some revision.revisionId) (index + 1) rest

/-- The Session boundary and the complete Task Intent parent chain. -/
def validate (snapshot : TaskSessionSnapshot) : Result Unit := do
  snapshot.externalSessionLocator.validate
  TaskSignal.validateCollection snapshot.taskSignals
  if snapshot.intentRevisions.isEmpty then
    throw (invalid "task_session.intent_revisions must contain an initial revision")
  validateChain text [] none 0 snapshot.intentRevisions

/-- Starts a validated local Task Session with its initial Intent revision. -/
def fromInitial (taskSessionId : TaskSessionId) (revisionId : TaskIntentRevisionId)
    (externalSessionLocator : ExternalSessionLocator) (taskId : TaskId)
    (workingIntent : WorkingIntentSnapshot) (taskSignals : List TaskSignal) :
    Result TaskSessionSnapshot := do
  externalSessionLocator.validate
  TaskSignal.validateCollection taskSignals
  let initialRevision ← TaskIntentRevision.initial text revisionId workingIntent
  let snapshot : TaskSessionSnapshot :=
    { taskSessionId, taskId, externalSessionLocator
      intentRevisions := [initialRevision], taskSignals }
  snapshot.validate text
  pure snapshot

end TaskSessionSnapshot

end SharedContext
