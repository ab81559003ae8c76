import SharedContext.Domain.Observations
import SharedContext.Library.DepthFirst
import SharedContext.Library.Entries
import SharedContext.Reducer.Projection

/-!
# Evidence of a Claim

A Claim cites Observations, Task Signals and Context evidence, and a Validation
cites further ones.  What the citations lead to is collected once, and fails
with the first citation that is no evidence.
-/

namespace SharedContext.Mcp

open Episode DepthFirst

/-- `visited_observations`, `observation_ids` and `evidence`. -/
abbrev Collected := DepthFirst.State Uuid EvidenceSnapshotDraft

abbrev Collecting := Except (DepthFirst.Stop String) Collected

/-- What the evidence of a Claim is taken from. -/
structure EvidenceSources where
  episode : WorkEpisode
  signals : List TaskSignalRecord
  projection : DomainProjection

namespace EvidenceSources

variable (sources : EvidenceSources)

def findObservation (observationId : Uuid) : Option WorkObservation :=
  sources.episode.observations.find? fun observation => observation.observationId = observationId

def findSignal (signalId : Uuid) : Option TaskSignalRecord :=
  sources.signals.find? fun signal => signal.signalId = signalId

/-- The Context of the first Space that has it. -/
def findContext (contextId : ContextId) : Option ContextProjection :=
  sources.projection.spaces.entries.findSome? fun space => space.2.contexts.get? contextId

def findContextEvidence (contextId : ContextId) (revisionId : RevisionId)
    (evidenceId : EvidenceId) : Option EvidenceSnapshot := do
  let context ← sources.findContext contextId
  let revision ← context.revisions.get? revisionId
  revision.revision.evidence.find? fun source => source.evidenceId = evidenceId

end EvidenceSources

section Collecting

variable (normalizedJson : NormalizedWorkObservation → Value) (sources : EvidenceSources)
  (claim : CheckpointClaim)

/-! ### Snapshots -/

def signalSnapshot (kind : EvidenceType) (record : TaskSignalRecord) : EvidenceSnapshotDraft where
  kind := kind
  supports := claim.statement
  content := .object [("kind", .string (signalKindText record.signal.kind)),
    ("normalized_content", .string record.signal.content),
    ("signal_id", .string (signalIdText record.signalId))]
  interpretation := "The Claim explicitly cites this normalized Task Signal"
  limitations :=
    ["A Task Signal records Task-local work and does not independently verify external state"]

def normalizedObservationLimitations : List String :=
  ["The snapshot excludes raw transcript and tool output"]

def validationSnapshot (observation : WorkObservation) (conclusion : String) :
    EvidenceSnapshotDraft where
  kind := .experimentRecord
  supports := claim.statement
  content := .object [("conclusion", .string conclusion),
    ("observation_id", .string (observationIdText observation.observationId))]
  interpretation := "The Claim cites this normalized validation conclusion"
  limitations := normalizedObservationLimitations

def normalizedSnapshot (kind : EvidenceType) (observation : WorkObservation) :
    EvidenceSnapshotDraft where
  kind := kind
  supports := claim.statement
  content := .object [("normalized", normalizedJson observation.observation),
    ("observation_id", .string (observationIdText observation.observationId))]
  interpretation := "The Claim explicitly cites this normalized Work Observation"
  limitations := normalizedObservationLimitations

def signalEvidence (signalId : Uuid) : Except String EvidenceSnapshotDraft :=
  match sources.findSignal signalId with
  | none => .error "task_signal_not_found"
  | some record =>
      if record.taskSessionId ≠ sources.episode.taskSessionId ∨
          record.taskId ≠ sources.episode.taskId then
        .error "task_signal_owner_mismatch"
      else
        match record.signal.kind with
        | .diff => .ok (signalSnapshot claim .artifactSnapshot record)
        | .testOutcome => .ok (signalSnapshot claim .experimentRecord record)
        | .prompt | .workspace => .error "task_signal_not_engineering_evidence"

def contextEvidence (contextId : ContextId) (revisionId : RevisionId) (evidenceId : EvidenceId) :
    Except String EvidenceSnapshotDraft :=
  match sources.findContextEvidence contextId revisionId evidenceId with
  | none => .error "context_evidence_not_found"
  | some source => .ok source.asDraft

/-! ### Collecting -/

def pushEvidence (state : Collected) : Except String EvidenceSnapshotDraft → Collecting
  | .error code => .error (.refused code)
  | .ok snapshot => .ok (state.emit snapshot)

/-- `collectObservation` collects the evidence of an Observation. -/
def collectCandidateEvidence (collectObservation : WorkObservation → Collected → Collecting)
    (reference : CheckpointEvidenceRef) (state : Collected) : Collecting :=
  match reference with
  | .observation observationId =>
      match sources.findObservation observationId with
      | none => .error (.refused "observation_not_found")
      | some observation => collectObservation observation state
  | .taskSignal signalId => pushEvidence state (signalEvidence sources claim signalId)
  | .contextEvidence contextId revisionId evidenceId =>
      pushEvidence state (contextEvidence sources contextId revisionId evidenceId)

/-- References one after the other, up to the first that fails. -/
def collectReferences (collectObservation : WorkObservation → Collected → Collecting) :
    List CheckpointEvidenceRef → Collected → Collecting
  | [], state => .ok state
  | reference :: rest, state =>
      match collectCandidateEvidence sources claim collectObservation reference state with
      | .error stop => .error stop
      | .ok after => collectReferences collectObservation rest after

def collectObservationEvidence : Nat → WorkObservation → Collected → Collecting
  | 0, _, _ => .error .outOfFuel
  | fuel + 1, observation, state =>
      if observation.observationId ∈ state.visited then .ok state
      else
        let entered := state.enter observation.observationId
        match observation.observation with
        | .inlineValidation inline => .ok (entered.emit inline)
        | .unresolvedQuestion _ => .error (.refused "unresolved_question_not_evidence")
        | .validation conclusion evidenceRefs =>
            match collectReferences sources claim (collectObservationEvidence fuel) evidenceRefs
                entered with
            | .error stop => .error stop
            | .ok after => .ok (after.emit (validationSnapshot claim observation conclusion))
        | .testOutcome _ _ _ =>
            .ok (entered.emit (normalizedSnapshot normalizedJson claim .experimentRecord observation))
        | .diff _ _ | .artifact _ _ _ | .interface _ _ =>
            .ok (entered.emit (normalizedSnapshot normalizedJson claim .artifactSnapshot observation))
        | .contextUse _ _ _ =>
            .ok (entered.emit (normalizedSnapshot normalizedJson claim .sourceSnapshot observation))

/-- Keep the first snapshot of each text, after those seen. -/
def retainUnseen (seen : List (List Char)) : List EvidenceSnapshotDraft → List EvidenceSnapshotDraft
  | [] => []
  | snapshot :: rest =>
      if draftText snapshot ∈ seen then retainUnseen seen rest
      else snapshot :: retainUnseen (draftText snapshot :: seen) rest

def deduplicateCandidateEvidence (evidence : List EvidenceSnapshotDraft) :
    List EvidenceSnapshotDraft :=
  retainUnseen [] evidence

def collectClaimEvidence (fuel : Nat) :
    Except (DepthFirst.Stop String) (List Uuid × List EvidenceSnapshotDraft) :=
  match collectReferences sources claim (collectObservationEvidence normalizedJson sources claim fuel)
      claim.evidenceRefs .start with
  | .error stop => .error stop
  | .ok collected => .ok (collected.listed, deduplicateCandidateEvidence collected.emitted)

end Collecting

end SharedContext.Mcp
