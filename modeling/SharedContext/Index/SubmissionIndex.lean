import SharedContext.EventSchema.ConfirmationEvents
import SharedContext.Index.CommitMemo
import SharedContext.Library.Entries
import SharedContext.Reducer.FactSources

/-!
# The index of Candidate submissions

A Candidate is submitted under an identity of its own, which the index resolves
to the Candidate it created.  Events that do not parse leave at most a hint of
the submission they meant; the hints are merged into the reduced projection and
turn their submissions into conflicts.
-/

namespace SharedContext

/-! ### The events of a tree -/

/-- Safely extracted identity hints from a known-V1 Candidate Event envelope. -/
structure CandidateSubmissionHint where
  submissionId : SubmissionId
  eventId : Option EventId
  candidateId : Option CandidateId
  deriving DecidableEq, Repr

/-- Events that come from a Candidate name the batch that wrote them. -/
def EventPayload.requiresWriterBatch : EventPayload → Bool
  | .contextCandidateCreated _ | .candidateConfirmed _ => true
  | .contextSpaceAssociationChanged association =>
      match association.origin with
      | .candidateConfirmation _ => true
      | _ => false
  | _ => false

/-- A parsed Event at its path. -/
structure KnownEvent where
  path : String
  event : ReducerEvent
  writerBatchId : Option String
  batched : event.payload.requiresWriterBatch = true → writerBatchId.any validBatchId = true

/-- What parsing makes of one blob under `events/`. -/
inductive EventBlob
  | known (parsed : KnownEvent)
  | unknownSchema (path : String)
  | malformed (path : String) (hint : Option CandidateSubmissionHint)

namespace EventBlob

def path : EventBlob → String
  | .known parsed => parsed.path
  | .unknownSchema path => path
  | .malformed path _ => path

def known? : EventBlob → Option KnownEvent
  | .known parsed => some parsed
  | _ => none

def event? (blob : EventBlob) : Option ReducerEvent :=
  blob.known?.map KnownEvent.event

def hint? : EventBlob → Option CandidateSubmissionHint
  | .malformed _ hint => hint
  | _ => none

end EventBlob

/-! ### Building the input of the index -/

structure CandidateEventMetadata where
  submissionId : SubmissionId
  candidateId : CandidateId
  eventPath : String
  batchId : Option String
  commitOid : Option String

structure BuildInput where
  projection : DomainProjection
  candidateEvents : BTreeMap EventId CandidateEventMetadata

/-- The metadata of a Candidate event; its commit is not known yet. -/
def candidateEventMetadata (known : KnownEvent) : Option (EventId × CandidateEventMetadata) :=
  match known.event.payload with
  | .contextCandidateCreated candidate =>
      some (known.event.eventId,
        ⟨candidate.submissionId, candidate.candidateId, known.path, known.writerBatchId, none⟩)
  | _ => none

/-- A later event of the same ID replaces the metadata of an earlier one. -/
def collectCandidateEvents (blobs : List EventBlob) : BTreeMap EventId CandidateEventMetadata :=
  ((blobs.filterMap EventBlob.known?).filterMap candidateEventMetadata).foldl
    (fun table entry => table.insert entry.1 entry.2) .empty

def CandidateSubmissionConflict.vacant (submissionId : SubmissionId) :
    CandidateSubmissionConflict :=
  ⟨submissionId, ∅, ∅, ∅⟩

/-- One hint, with the valid mapping of its submission, if there is one. -/
def CandidateSubmissionConflict.extend (valid : Option CandidateSubmissionProjection)
    (hint : CandidateSubmissionHint) (conflict : CandidateSubmissionConflict) :
    CandidateSubmissionConflict :=
  { conflict with
    eventIds := conflict.eventIds ∪ hint.eventId.toFinset ∪
      (valid.map CandidateSubmissionProjection.eventId).toFinset
    candidateIds := conflict.candidateIds ∪ hint.candidateId.toFinset ∪
      (valid.map CandidateSubmissionProjection.candidateId).toFinset
    contentHashes := conflict.contentHashes ∪
      (valid.map CandidateSubmissionProjection.contentHash).toFinset }

def mergeHint (projection : DomainProjection) (hint : CandidateSubmissionHint) :
    DomainProjection :=
  { projection with
    candidateSubmissionConflicts :=
      projection.candidateSubmissionConflicts.upsert hint.submissionId
        (.vacant hint.submissionId)
        (.extend (projection.candidateSubmissions.get? hint.submissionId) hint) }

def mergeMalformedCandidateHints (projection : DomainProjection)
    (hints : List CandidateSubmissionHint) : DomainProjection :=
  hints.foldl mergeHint projection

variable (hasher : ContentHasher)

def build (blobs : List EventBlob) : BuildInput where
  projection := mergeMalformedCandidateHints
    (reduce (blobs.filterMap EventBlob.event?) hasher) (blobs.filterMap EventBlob.hint?)
  candidateEvents := collectCandidateEvents blobs

def BuildInput.withCommits (additions : EventAdditions) (input : BuildInput) : BuildInput :=
  { input with
    candidateEvents := input.candidateEvents.map fun metadata =>
      { metadata with commitOid := (introducingCommitOid additions metadata.eventPath).toOption } }

/-- Name the commit that introduced every Candidate event. -/
def buildInput (additions : EventAdditions) (blobs : List EventBlob) : Result BuildInput := do
  let input := build hasher blobs
  input.candidateEvents.entries.forM fun entry => do
    let _ ← introducingCommitOid additions entry.2.eventPath
  pure (input.withCommits additions)

/-! ### Writing the tables -/

structure CandidateSubmissionRow where
  submissionId : SubmissionId
  candidateId : CandidateId
  eventId : EventId
  sourceEpisode : WorkEpisodeRef
  contentHash : String
  batchId : String
  commitOid : String
  eventPath : String

structure SubmissionTables where
  candidateSubmission : List CandidateSubmissionRow
  candidateSubmissionConflict : BTreeMap SubmissionId CandidateSubmissionConflict

def BuildInput.submissionRow (input : BuildInput) (projection : CandidateProjection) :
    Result CandidateSubmissionRow :=
  match input.projection.candidateSubmissions.get? projection.candidate.submissionId with
  | none => .error ⟨.invariantViolation, "valid Candidate lacks submission projection"⟩
  | some submission =>
      match input.candidateEvents.get? projection.eventId with
      | none => .error ⟨.invariantViolation, "valid Candidate lacks Event metadata"⟩
      | some metadata => do
          if metadata.submissionId ≠ submission.submissionId ∨
              metadata.candidateId ≠ submission.candidateId then
            throw ⟨.invariantViolation, "Candidate submission metadata identity mismatch"⟩
          let some batchId := metadata.batchId
            | throw ⟨.invariantViolation, "Candidate Event lacks Writer batch metadata"⟩
          let some commitOid := metadata.commitOid
            | throw ⟨.invariantViolation, "Candidate Event lacks introducing commit metadata"⟩
          pure ⟨submission.submissionId, submission.candidateId, submission.eventId,
            submission.sourceEpisode, submission.contentHash, batchId, commitOid,
            metadata.eventPath⟩

def CandidateSubmissionRow.Clashes (row other : CandidateSubmissionRow) : Prop :=
  row.submissionId = other.submissionId ∨ row.candidateId = other.candidateId ∨
    row.eventId = other.eventId ∨ row.eventPath = other.eventPath

instance (row other : CandidateSubmissionRow) : Decidable (row.Clashes other) := by
  unfold CandidateSubmissionRow.Clashes
  infer_instance

def writeSubmissions (input : BuildInput) : List CandidateProjection →
    List CandidateSubmissionRow → Result (List CandidateSubmissionRow)
  | [], rows => pure rows
  | projection :: rest, rows => do
      let row ← input.submissionRow projection
      Result.require (∀ other ∈ rows, ¬ row.Clashes other)
        ⟨.external, "write Candidate submission projection"⟩
      writeSubmissions input rest (rows ++ [row])

def writeTables (additions : EventAdditions) (blobs : List EventBlob) :
    Result SubmissionTables := do
  let input ← buildInput hasher additions blobs
  let rows ← writeSubmissions input (input.projection.candidates.entries.map Prod.snd) []
  pure ⟨rows, input.projection.candidateSubmissionConflicts⟩

/-! ### Looking a submission up -/

/-- The identity of a batch, as its canonical text. -/
structure WriterBatchId where
  value : String
  canonical : validBatchId value = true
  deriving DecidableEq

def WriterBatchId.fromStr (value : String) : Result WriterBatchId :=
  if canonical : validBatchId value = true then .ok ⟨value, canonical⟩
  else .error ⟨.invalidInput,
    if "bat_".toList.isPrefixOf value.toList then
      "batch ID must contain a canonical lowercase UUIDv4"
    else "batch ID must start with bat_"⟩

/-- Complete indexed metadata for one unique committed Candidate submission. -/
structure CandidateSubmissionRecord where
  submissionId : SubmissionId
  candidateId : CandidateId
  eventId : EventId
  sourceEpisode : WorkEpisodeRef
  contentHash : String
  batchId : WriterBatchId
  commitOid : String
  eventPath : String
  deriving DecidableEq

/-- Typed indexed lookup that isolates submission-local authoritative conflicts. -/
inductive CandidateSubmissionLookup
  | notFound
  | found (record : CandidateSubmissionRecord)
  | conflict (submissionId : SubmissionId) (eventIds : Finset EventId)
      (candidateIds : Finset CandidateId) (contentHashes : Finset String)
  deriving DecidableEq

def CandidateSubmissionRow.record (row : CandidateSubmissionRow) :
    Result CandidateSubmissionRecord := do
  let batchId ← WriterBatchId.fromStr row.batchId
  pure ⟨row.submissionId, row.candidateId, row.eventId, row.sourceEpisode, row.contentHash,
    batchId, row.commitOid, row.eventPath⟩

def SubmissionTables.lookup (tables : SubmissionTables) (submissionId : SubmissionId) :
    Result CandidateSubmissionLookup :=
  match tables.candidateSubmissionConflict.get? submissionId with
  | some conflict =>
      pure (.conflict submissionId conflict.eventIds conflict.candidateIds conflict.contentHashes)
  | none =>
      match tables.candidateSubmission.find? fun row => row.submissionId = submissionId with
      | none => pure .notFound
      | some row => do
          let record ← row.record
          pure (.found record)

/-- Index one tree and look a submission up in it. -/
def lookupSubmission (additions : EventAdditions) (blobs : List EventBlob)
    (submissionId : SubmissionId) : Result CandidateSubmissionLookup := do
  let tables ← writeTables hasher additions blobs
  tables.lookup submissionId

end SharedContext
