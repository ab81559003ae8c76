import SharedContext.Domain.CandidateAnalysis
import SharedContext.Domain.JsonText
import SharedContext.Domain.Task

/-!
# Observations of a Work Episode

What an Episode observed, and the references by which Claims and Validations
cite it.
-/

namespace SharedContext.Episode

inductive CheckpointEvidenceRef
  | observation (observationId : Uuid)
  | taskSignal (signalId : Uuid)
  | contextEvidence (contextId : ContextId) (revisionId : RevisionId) (evidenceId : EvidenceId)
  deriving DecidableEq, Repr

/-- How a previously retrieved Context influenced the current Task. -/
inductive ContextUseDisposition
  | applied
  | ignored
  deriving DecidableEq, Repr

/-- How the Agent interacted with one Artifact. -/
inductive ArtifactAction
  | inspected
  | modified
  deriving DecidableEq, Repr

/-- Normalized test result without raw tool output. -/
inductive TestOutcomeStatus
  | passed
  | failed
  | inconclusive
  deriving DecidableEq, Repr

inductive NormalizedWorkObservation
  | testOutcome (testName : String) (status : TestOutcomeStatus) (summary : String)
  | diff (summary : String) (artifactRefs : List ArtifactRef)
  | contextUse (context : ContextRevisionRef) (disposition : ContextUseDisposition)
      (reason : String)
  | artifact (artifact : ArtifactRef) (action : ArtifactAction) (summary : String)
  | interface (interface : ArtifactRef) (observation : String)
  | validation (conclusion : String) (evidenceRefs : List CheckpointEvidenceRef)
  | inlineValidation (evidence : EvidenceSnapshotDraft)
  | unresolvedQuestion (question : String)
  deriving Repr

structure WorkObservation where
  observationId : Uuid
  observation : NormalizedWorkObservation
  deriving Repr

/-- One stored Task Signal with its owner. -/
structure TaskSignalRecord where
  signalId : Uuid
  taskSessionId : TaskSessionId
  taskId : TaskId
  signal : TaskSignal
  deriving DecidableEq, Repr

structure WorkEpisode where
  taskSessionId : TaskSessionId
  taskId : TaskId
  observations : List WorkObservation
  deriving Repr

structure CheckpointClaim where
  statement : String
  evidenceRefs : List CheckpointEvidenceRef
  deriving DecidableEq, Repr

/-! ### Texts -/

def observationIdText (observationId : Uuid) : String :=
  "wob_" ++ observationId.hyphenated

def signalIdText (signalId : Uuid) : String :=
  "sig_" ++ signalId.hyphenated

def signalKindText : TaskSignalKind → String
  | .prompt => "prompt"
  | .workspace => "workspace"
  | .diff => "diff"
  | .testOutcome => "test_outcome"

def evidenceTypeText : EvidenceType → String
  | .sourceSnapshot => "source_snapshot"
  | .experimentRecord => "experiment_record"
  | .artifactSnapshot => "artifact_snapshot"

theorem evidenceTypeText_injective : Function.Injective evidenceTypeText := by
  intro first second
  cases first <;> cases second <;> decide

/-- The JSON of a snapshot, its members in the order of the fields. -/
def draftJson (draft : EvidenceSnapshotDraft) : Value :=
  .object [("kind", .string (evidenceTypeText draft.kind)), ("supports", .string draft.supports),
    ("content", draft.content), ("interpretation", .string draft.interpretation),
    ("limitations", .array (draft.limitations.map .string))]

/-- `serde_json::to_string` of a snapshot. -/
def draftText (draft : EvidenceSnapshotDraft) : List Char :=
  (draftJson draft).compact

theorem itemsWellFormed_strings (texts : List String) :
    ItemsWellFormed (texts.map .string) := by
  induction texts with
  | nil => exact trivial
  | cons text texts ih => exact ⟨trivial, ih⟩

theorem draftJson_wellFormed {draft : EvidenceSnapshotDraft} (content : draft.content.WellFormed) :
    (draftJson draft).WellFormed :=
  ⟨(by decide : ["kind", "supports", "content", "interpretation", "limitations"].Nodup),
    trivial, trivial, content, trivial, itemsWellFormed_strings _, trivial⟩

theorem draftText_injective {first second : EvidenceSnapshotDraft}
    (firstContent : first.content.WellFormed) (secondContent : second.content.WellFormed)
    (same : draftText first = draftText second) : first = second := by
  have json := Value.compact_injective (draftJson_wellFormed firstContent)
    (draftJson_wellFormed secondContent) same
  obtain ⟨kind, supports, content, interpretation, limitations⟩ := first
  obtain ⟨otherKind, otherSupports, otherContent, otherInterpretation, otherLimitations⟩ := second
  simp only [draftJson, Value.object.injEq, List.cons.injEq, Prod.mk.injEq, Value.string.injEq,
    Value.array.injEq, true_and, and_true] at json
  obtain ⟨kindEq, rfl, rfl, rfl, limitationsEq⟩ := json
  have stringInjective : Function.Injective Value.string := fun _ _ => Value.string.inj
  obtain rfl := evidenceTypeText_injective kindEq
  obtain rfl := List.map_injective_iff.mpr stringInjective limitationsEq
  rfl

end SharedContext.Episode
