import Mathlib.Data.Finset.Card
import Mathlib.Data.List.Sort
import SharedContext.TaskRuntime.CandidateTables

/-!
# Preparing Candidate Builds and recording their results

A preparation classifies every Claim of a closed Episode as an item to submit
or as a duplicate of an existing Candidate, and merges that with what earlier
preparations persisted.  A result comes back from the Git boundary for one
`SubmissionId`; a finalized result opens the Review of its Candidate.  Each
operation is one transaction: it returns the tables to commit or an error.
-/

namespace SharedContext

/-- Builder-computed Claim readiness persisted before any Git write. -/
structure CandidateBuildItemPreparation where
  checkpointId : AgentCheckpointId
  claimId : CheckpointClaimId
  contentHash : Option String
  status : CandidateBuildItemStatus
  errorCode : Option String
  deriving DecidableEq, Repr

/-- Builder decision that one Claim restates an existing Candidate. -/
structure CandidateBuildDuplicatePreparation where
  checkpointId : AgentCheckpointId
  claimId : CheckpointClaimId
  duplicateOfCandidateId : CandidateId
  similarityBasisPoints : Nat
  deriving DecidableEq, Repr

/-- Durable deterministic build state for one exact closed Episode. -/
structure CandidateBuildView where
  build : CandidateBuildRow
  items : List CandidateBuildItemRow
  duplicates : List CandidateBuildDuplicateRow
  deriving DecidableEq, Repr

/-! ### Validation -/

def validErrorCode (value : String) : Bool :=
  !value.isEmpty && value.utf8ByteSize ≤ 96 &&
    value.toList.all fun character =>
      character.isLower || character.isDigit || character = '_'

def CandidateBuildItemPreparation.validateReadiness (item : CandidateBuildItemPreparation) :
    Result Unit :=
  match item.status with
  | .prepared =>
      Result.require
        (item.contentHash.any (fun hash => !hash.isEmpty) ∧ item.errorCode = none)
        (invalid "Candidate Build preparation readiness metadata is incomplete")
  | .needsEvidence =>
      Result.require (item.contentHash = none ∧ item.errorCode.any validErrorCode)
        (invalid "Candidate Build preparation readiness metadata is incomplete")
  | .queued | .created | .alreadyExists | .failed =>
      .error (invalid "Candidate Build preparation cannot supply a submission result status")

/-- Check preparations in order against the Claims of those before. -/
def validateBuildPreparationsFrom (claimIds : List CheckpointClaimId) :
    List CandidateBuildItemPreparation → Result Unit
  | [] => pure ()
  | item :: rest => do
      Result.require (item.claimId ∉ claimIds)
        (invalid "Candidate Build preparations must not repeat ClaimId")
      item.validateReadiness
      validateBuildPreparationsFrom (item.claimId :: claimIds) rest

def validateBuildPreparations (items : List CandidateBuildItemPreparation) : Result Unit :=
  validateBuildPreparationsFrom [] items

/-- The Claims a call classifies, with their checkpoints. -/
def suppliedClaims (items : List CandidateBuildItemPreparation)
    (duplicates : List CandidateBuildDuplicatePreparation) :
    List (AgentCheckpointId × CheckpointClaimId) :=
  items.map (fun item => (item.checkpointId, item.claimId)) ++
    duplicates.map (fun duplicate => (duplicate.checkpointId, duplicate.claimId))

def validateBuildClaimCoverage (episode : WorkEpisodeView)
    (items : List CandidateBuildItemPreparation)
    (duplicates : List CandidateBuildDuplicatePreparation) : Result Unit :=
  Result.require
    (episode.claims.toFinset.card = items.length + duplicates.length ∧
      episode.claims.toFinset = (suppliedClaims items duplicates).toFinset)
    (invalid "Candidate Build must classify every persisted Checkpoint Claim exactly once")

def validateBuildItemResult (status : CandidateBuildItemStatus) (candidateId : Option CandidateId)
    (eventId : Option EventId) (errorCode : Option String) : Result Unit :=
  match status with
  | .created | .alreadyExists =>
      Result.require (candidateId.isSome ∧ eventId.isSome ∧ errorCode = none)
        (invalid "Candidate Build result identity or safe error code is incomplete")
  | .failed =>
      Result.require (candidateId = none ∧ eventId = none ∧ errorCode.any validErrorCode)
        (invalid "Candidate Build result identity or safe error code is incomplete")
  | .queued | .prepared | .needsEvidence =>
      .error (invalid "Candidate Build result requires a terminal submission status")

/-! ### Reading -/

def readCandidateBuildId (tables : CandidateTables) (episodeId : WorkEpisodeId) :
    Option CandidateBuildId :=
  (tables.candidateBuild.rows.find? fun row =>
    row.sourceEpisode.episodeId = episodeId).map (·.buildId)

def readCandidateBuildItems (tables : CandidateTables) (buildId : CandidateBuildId) :
    List CandidateBuildItemRow :=
  (tables.candidateBuildItem.rows.filter fun row => row.buildId = buildId).insertionSort
    fun first second => first.itemOrdinal ≤ second.itemOrdinal

def readCandidateBuildItem (tables : CandidateTables) (buildId : CandidateBuildId)
    (submissionId : SubmissionId) : Option CandidateBuildItemRow :=
  (readCandidateBuildItems tables buildId).find? fun item => item.submissionId = submissionId

def readCandidateBuildDuplicates (tables : CandidateTables) (buildId : CandidateBuildId) :
    List CandidateBuildDuplicateRow :=
  (tables.candidateBuildDuplicate.rows.filter fun row => row.buildId = buildId).insertionSort
    fun first second => first.duplicateOrdinal ≤ second.duplicateOrdinal

def requireCandidateBuildView (tables : CandidateTables) (buildId : CandidateBuildId) :
    Result CandidateBuildView :=
  match tables.candidateBuild.find? buildId with
  | some build =>
      .ok ⟨build, readCandidateBuildItems tables buildId,
        readCandidateBuildDuplicates tables buildId⟩
  | none => .error (invariantViolation "Candidate Build disappeared")

/-! ### Preparation -/

/-- The identifiers a preparation would create: the Build, and the submission of
the item at each position. -/
structure NewBuildIds where
  buildId : CandidateBuildId
  submissionId : Nat → SubmissionId

/-- Insert an item; the primary key and both unique columns must be free. -/
def insertCandidateBuildItem (tables : CandidateTables) (row : CandidateBuildItemRow) :
    Result CandidateTables := do
  Result.require (∀ other ∈ tables.candidateBuildItem.rows, other.submissionId ≠ row.submissionId)
    (sqlError "insert Candidate Build item" ("UNIQUE constraint failed: " ++
      "candidate_build_item.submission_id"))
  Result.require
    (∀ other ∈ tables.candidateBuildItem.rows, other.buildId = row.buildId →
      other.itemOrdinal ≠ row.itemOrdinal)
    (sqlError "insert Candidate Build item" ("UNIQUE constraint failed: " ++
      "candidate_build_item.build_id, candidate_build_item.item_ordinal"))
  match tables.candidateBuildItem.insert row with
  | some candidateBuildItem => pure { tables with candidateBuildItem }
  | none =>
      throw (sqlError "insert Candidate Build item" ("UNIQUE constraint failed: " ++
        "candidate_build_item.build_id, candidate_build_item.claim_id"))

def updateCandidateBuildItems (tables : CandidateTables)
    (condition : CandidateBuildItemRow → Bool) (state : CandidateBuildItemState) :
    CandidateTables :=
  { tables with
    candidateBuildItem := tables.candidateBuildItem.updateWhere condition
      (fun row => { row with state }) (fun _ => rfl) }

/-- Merge one preparation with the item persisted for its Claim, or insert it. -/
def upsertCandidateBuildItem (existing : List CandidateBuildItemRow)
    (buildId : CandidateBuildId) (newIds : NewBuildIds) (ordinal : Nat)
    (item : CandidateBuildItemPreparation) (tables : CandidateTables) :
    Result CandidateTables := do
  match existing.find? (fun persisted => persisted.claimId = item.claimId) with
  | some persisted =>
      Result.require (persisted.checkpointId = item.checkpointId)
        (invariantViolation "persisted Candidate Build Claim owner changed")
      Result.require
        (item.contentHash = none ∨ persisted.state.contentHash = none ∨
          item.contentHash = persisted.state.contentHash)
        (invariantViolation "deterministic Candidate content hash changed across retry")
      if persisted.state.status.isFinalized ∨
          persisted.state.status = .prepared ∧ item.status = .needsEvidence then
        pure tables
      else
        let state ← CandidateBuildItemState.ofColumns item.contentHash item.status none none
          item.errorCode
        pure (updateCandidateBuildItems tables
          (fun row => row.buildId = buildId ∧ row.claimId = item.claimId) state)
  | none =>
      let state ← CandidateBuildItemState.ofColumns item.contentHash item.status none none
        item.errorCode
      insertCandidateBuildItem tables
        ⟨buildId, ordinal, item.checkpointId, item.claimId, newIds.submissionId ordinal, state⟩

def upsertCandidateBuildItemsFrom (existing : List CandidateBuildItemRow)
    (buildId : CandidateBuildId) (newIds : NewBuildIds) (ordinal : Nat) :
    List CandidateBuildItemPreparation → CandidateTables → Result CandidateTables
  | [], tables => pure tables
  | item :: rest, tables => do
      let tables ← upsertCandidateBuildItem existing buildId newIds ordinal item tables
      upsertCandidateBuildItemsFrom existing buildId newIds (ordinal + 1) rest tables

def upsertCandidateBuildItems (tables : CandidateTables) (buildId : CandidateBuildId)
    (newIds : NewBuildIds) (items : List CandidateBuildItemPreparation) :
    Result CandidateTables := do
  let existing := readCandidateBuildItems tables buildId
  Result.require (existing = [] ∨ existing.length = items.length)
    (invariantViolation "persisted Candidate Build Claim coverage changed")
  upsertCandidateBuildItemsFrom existing buildId newIds 0 items tables

def nextDuplicateOrdinal (tables : CandidateTables) (buildId : CandidateBuildId) : Nat :=
  ((tables.candidateBuildDuplicate.rows.filter fun row =>
    row.buildId = buildId).map (·.duplicateOrdinal + 1)).foldr max 0

/-- `INSERT OR IGNORE`: a taken key or a similarity out of range skips the row. -/
def insertCandidateBuildDuplicate (buildId : CandidateBuildId) (tables : CandidateTables)
    (duplicate : CandidateBuildDuplicatePreparation) : CandidateTables :=
  if duplicate.similarityBasisPoints ≤ 10000 then
    match tables.candidateBuildDuplicate.insert
        ⟨buildId, nextDuplicateOrdinal tables buildId, duplicate.checkpointId,
          duplicate.claimId, duplicate.duplicateOfCandidateId,
          duplicate.similarityBasisPoints⟩ with
    | some candidateBuildDuplicate => { tables with candidateBuildDuplicate }
    | none => tables
  else
    tables

def insertCandidateBuildDuplicates (tables : CandidateTables) (buildId : CandidateBuildId)
    (duplicates : List CandidateBuildDuplicatePreparation) : CandidateTables :=
  duplicates.foldl (insertCandidateBuildDuplicate buildId) tables

def refreshedBuildStatus (items : List CandidateBuildItemRow) : CandidateBuildStatus :=
  if items.any fun item =>
      item.state.status = .queued ∨ item.state.status = .prepared then
    .pending
  else if items.any fun item =>
      item.state.status = .needsEvidence ∨ item.state.status = .failed then
    .incomplete
  else
    .complete

def refreshCandidateBuildStatus (tables : CandidateTables) (buildId : CandidateBuildId) :
    CandidateTables :=
  { tables with
    candidateBuild := tables.candidateBuild.updateWhere (fun row => row.buildId = buildId)
      (fun row =>
        { row with status := refreshedBuildStatus (readCandidateBuildItems tables buildId) })
      (fun _ => rfl) }

/-- The Build of an Episode, inserted when the Episode has none. -/
def requireCandidateBuild (tables : CandidateTables) (newIds : NewBuildIds)
    (episode : WorkEpisodeView) (finalCheckpointId : AgentCheckpointId) :
    Result (CandidateTables × CandidateBuildId) :=
  match readCandidateBuildId tables episode.ownership.episodeId with
  | some buildId => .ok (tables, buildId)
  | none =>
      match tables.candidateBuild.insert
          ⟨newIds.buildId, episode.ownership, finalCheckpointId, .pending⟩ with
      | some candidateBuild => .ok ({ tables with candidateBuild }, newIds.buildId)
      | none =>
          .error (sqlError "insert Candidate Build" ("UNIQUE constraint failed: " ++
            "candidate_build.build_id"))

def submittedClaims (tables : CandidateTables) (buildId : CandidateBuildId) :
    List CheckpointClaimId :=
  ((readCandidateBuildItems tables buildId).filter fun item =>
    item.state.status.isFinalized).map (·.claimId)

def persistedDuplicates (tables : CandidateTables) (buildId : CandidateBuildId) :
    List CheckpointClaimId :=
  (readCandidateBuildDuplicates tables buildId).map (·.claimId)

/-- Delete the items of duplicates that have no Candidate yet. -/
def releaseDeduplicatedItems (tables : CandidateTables) (buildId : CandidateBuildId)
    (duplicates : List CandidateBuildDuplicatePreparation) : CandidateTables :=
  { tables with
    candidateBuildItem := tables.candidateBuildItem.deleteWhere fun row =>
      row.buildId = buildId ∧ row.claimId ∈ duplicates.map (·.claimId) ∧
        row.state.candidateId = none }

/-- Merge a classification into the Build of its Episode. -/
def mergeClassification (tables : CandidateTables) (buildId : CandidateBuildId)
    (newIds : NewBuildIds) (items : List CandidateBuildItemPreparation)
    (duplicates : List CandidateBuildDuplicatePreparation) : Result CandidateTables := do
  let submitted := submittedClaims tables buildId
  let recorded := persistedDuplicates tables buildId
  let items := items.filter fun item => item.claimId ∉ recorded
  let duplicates := duplicates.filter fun duplicate => duplicate.claimId ∉ submitted
  let tables ← upsertCandidateBuildItems (releaseDeduplicatedItems tables buildId duplicates)
    buildId newIds items
  pure (insertCandidateBuildDuplicates tables buildId duplicates)

/-- Prepares one Candidate Build whose Claims are split into submittable drafts
and durable deduplication decisions. -/
def prepareCandidateBuildWithDuplicates (episodes : WorkEpisodeId → Option WorkEpisodeView)
    (tables : CandidateTables) (newIds : NewBuildIds) (episodeId : WorkEpisodeId)
    (items : List CandidateBuildItemPreparation)
    (duplicates : List CandidateBuildDuplicatePreparation) :
    Result (CandidateTables × CandidateBuildView) := do
  validateBuildPreparations items
  match episodes episodeId with
  | none => throw (invariantViolation "Work Episode disappeared inside transaction")
  | some episode =>
      match episode.status with
      | .open_ => throw (invalid "Candidate Builder requires an exact closed Work Episode")
      | .closed finalCheckpointId =>
          validateBuildClaimCoverage episode items duplicates
          let (tables, buildId) ←
            requireCandidateBuild tables newIds episode finalCheckpointId
          let tables ← mergeClassification tables buildId newIds items duplicates
          let tables := refreshCandidateBuildStatus tables buildId
          let view ← requireCandidateBuildView tables buildId
          pure (tables, view)

/-! ### Results -/

def defaultCandidateReviewTtl : Nat := 30 * 24 * 60 * 60

/-- `INSERT OR IGNORE`: the Review of a finalized item, unless its Candidate, its
submission or its Claim already has one. -/
def initializeCandidateReview (tables : CandidateTables) (buildId : CandidateBuildId)
    (submissionId : SubmissionId) (candidateId : CandidateId) (now expiresAt : Nat) :
    CandidateTables :=
  let selected := do
    let item ← readCandidateBuildItem tables buildId submissionId
    let build ← tables.candidateBuild.find? buildId
    if item.state.candidateId = some candidateId ∧ item.state.status.isFinalized then
      some (item, build)
    else
      none
  match selected with
  | none => tables
  | some (item, build) =>
      let taken := tables.candidateReview.rows.any fun row =>
        row.submissionId = submissionId ∨ row.buildId = buildId ∧ row.claimId = item.claimId
      if taken then
        tables
      else
        match tables.candidateReview.insert
            { candidateId, submissionId
              sourceEpisode := build.sourceEpisode
              buildId
              finalCheckpointId := build.finalCheckpointId
              checkpointId := item.checkpointId
              claimId := item.claimId
              reviewVersion := 1
              decision := .pending
              createdAtUnixSeconds := now
              expiresAtUnixSeconds := expiresAt
              decisionSource := none } with
        | some candidateReview => { tables with candidateReview }
        | none => tables

/-- Write a result to its item; a finalized item only accepts its own identity. -/
def writeItemResult (tables : CandidateTables) (existing : CandidateBuildItemRow)
    (status : CandidateBuildItemStatus) (candidateId : Option CandidateId)
    (eventId : Option EventId) (errorCode : Option String) : Result CandidateTables := do
  if existing.state.status.isFinalized then
    Result.require
      (existing.state.candidateId = candidateId ∧ existing.state.eventId = eventId)
      (invariantViolation "finalized Candidate Build item identity changed across retry")
    pure tables
  else
    let state ← CandidateBuildItemState.ofColumns existing.state.contentHash status candidateId
      eventId errorCode
    pure (updateCandidateBuildItems tables
      (fun row => row.buildId = existing.buildId ∧ row.submissionId = existing.submissionId)
      state)

/-- Records the result of one Candidate submission after the Git boundary
returns. -/
def recordCandidateBuildItemResult (tables : CandidateTables) (buildId : CandidateBuildId)
    (submissionId : SubmissionId) (status : CandidateBuildItemStatus)
    (candidateId : Option CandidateId) (eventId : Option EventId) (errorCode : Option String)
    (now : Nat) : Result (CandidateTables × CandidateBuildView) := do
  validateBuildItemResult status candidateId eventId errorCode
  let expiresAt := now + defaultCandidateReviewTtl
  Result.require (expiresAt < 2 ^ 64)
    (invalid "Candidate Review expiration overflows Unix time")
  match readCandidateBuildItem tables buildId submissionId with
  | none => throw (invalid "Candidate Build item does not exist")
  | some existing =>
      let tables ← writeItemResult tables existing status candidateId eventId errorCode
      let tables ←
        (if status.isFinalized then
          match candidateId with
          | none => throw (invariantViolation "finalized Candidate Build item lacks CandidateId")
          | some candidateId => do
              Result.require (now < ordinalBound)
                (invalid "Candidate Review timestamp exceeds SQLite range")
              Result.require (expiresAt < ordinalBound)
                (invalid "Candidate Review expiration exceeds SQLite range")
              pure (initializeCandidateReview tables buildId submissionId candidateId now
                expiresAt)
        else
          pure tables)
      let tables := refreshCandidateBuildStatus tables buildId
      let view ← requireCandidateBuildView tables buildId
      pure (tables, view)

end SharedContext
