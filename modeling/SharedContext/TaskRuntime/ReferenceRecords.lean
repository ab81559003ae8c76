import SharedContext.Domain.Json
import SharedContext.Library.Table
import SharedContext.TaskRuntime.PromptStash
import SharedContext.TaskRuntime.ReferenceDerivation

/-!
# Recorded derivations

The first derivation of an Episode writes its coordinates back onto the Claims
and records what stayed ambiguous.  A later call replays that answer, unless the
Episode was reopened or a recorded ambiguity has another answer by now.
-/

namespace SharedContext

/-! ### Episodes and their Claims -/

inductive CheckpointEvidenceRef
  | observation (observationId : Uuid)
  | taskSignal
  | contextEvidence

inductive NormalizedWorkObservation
  | inlineValidation (content : Value)
  | other

structure WorkObservation where
  observationId : Uuid
  observation : NormalizedWorkObservation

structure CheckpointClaim where
  claimId : CheckpointClaimId
  contextKindHint : Option ContextKind
  statement : String
  rationale : String
  evidenceRefs : List CheckpointEvidenceRef
  topicKeyHint : Option String
  engineeringReferences : List EngineeringReferenceDraft

structure AgentCheckpoint where
  checkpointId : AgentCheckpointId
  claims : List CheckpointClaim

structure ReferenceDerivationRecord where
  placed : Nat
  ambiguous : Finset AmbiguousMention
  unresolved : Nat
  unresolvedSample : List (List Char)
  reopened : Bool
  derivedAtUnixSeconds : Option Nat

structure EpisodeReferences where
  episodeId : WorkEpisodeId
  observations : List WorkObservation
  checkpoints : List AgentCheckpoint
  record : Option ReferenceDerivationRecord

abbrev ReferenceStore := Table EpisodeReferences EpisodeReferences.episodeId

structure DerivedClaimReferences where
  checkpointId : AgentCheckpointId
  claimId : CheckpointClaimId
  engineeringReferences : List EngineeringReferenceDraft
  topicKeyHint : Option String
  unresolvedHints : Finset (List Char)
  ambiguousMentions : Finset AmbiguousMention
  applicabilityInherited : Bool

def Value.textMember? (value : Value) (name : String) : Option String :=
  match value with
  | .object members =>
      (members.find? fun member => member.1 = name).bind fun member =>
        match member.2 with
        | .string text => some text
        | _ => none
  | _ => none

def NormalizedWorkObservation.summary? : NormalizedWorkObservation → Option String
  | .inlineValidation content => content.textMember? "summary"
  | .other => none

def CheckpointEvidenceRef.summary? (observations : List WorkObservation) :
    CheckpointEvidenceRef → Option String
  | .observation observationId =>
      (observations.find? fun observation => observation.observationId = observationId).bind
        fun observation => observation.observation.summary?
  | .taskSignal | .contextEvidence => none

def claimEvidenceSummaries (observations : List WorkObservation) (claim : CheckpointClaim) :
    List String :=
  claim.evidenceRefs.filterMap (·.summary? observations)

/-! ### Merging -/

def EngineeringReferenceDraft.sameCoordinate (first second : EngineeringReferenceDraft) : Bool :=
  decide (first.repositoryId = second.repositoryId ∧ first.locator = second.locator)

def EngineeringReferenceDraft.sortKey (reference : EngineeringReferenceDraft) :
    String ×ₗ String :=
  toLex (reference.repositoryId.text, reference.locator.path.text)

def addReference (persisted : List EngineeringReferenceDraft)
    (reference : EngineeringReferenceDraft) : List EngineeringReferenceDraft :=
  if persisted.any fun existing => existing.sameCoordinate reference then persisted
  else persisted ++ [reference]

/-- The coordinates already persisted, and those only the derivation found. -/
def mergeEngineeringReferences (persisted derived : List EngineeringReferenceDraft) :
    List EngineeringReferenceDraft :=
  (derived.foldl addReference persisted).insertionSort fun first second =>
    first.sortKey ≤ second.sortKey

/-! ### Deriving an Episode -/

def relookup (mention : AmbiguousMention) : Option PathCandidate :=
  match mention.channel with
  | .path => (scanText mention.spelling).paths.head?
  | .symbol => none

/-- Whether a recorded ambiguity has another answer now. -/
def answerChanged (resolver : ClaimResolver) (mention : AmbiguousMention) : Bool :=
  match mention.channel with
  | .symbol => decide (resolver.resolveSymbol mention.spelling ≠ .ambiguous mention.matchCount)
  | .path =>
      match relookup mention with
      | some candidate => decide (resolver.resolvePath candidate ≠ .ambiguous mention.matchCount)
      | none => false

def ambiguityAnswerChanged (recorded : Finset AmbiguousMention) (resolver : ClaimResolver) :
    Bool :=
  decide (∃ mention ∈ recorded, answerChanged resolver mention = true)

section Derivation

variable (resolver : ClaimResolver) (observations : List WorkObservation)

def claimDerivation (claim : CheckpointClaim) : ClaimReferenceDerivation :=
  deriveClaimReferences (claim.contextKindHint.getD .discovery) claim.statement claim.rationale
    (claimEvidenceSummaries observations claim) resolver

def derivedClaim (claim : CheckpointClaim) : CheckpointClaim :=
  { claim with
    engineeringReferences := mergeEngineeringReferences claim.engineeringReferences
      (claimDerivation resolver observations claim).engineeringReferences
    topicKeyHint :=
      claim.topicKeyHint <|> (claimDerivation resolver observations claim).topicKeyHint }

def derivedCheckpoint (checkpoint : AgentCheckpoint) : AgentCheckpoint :=
  { checkpoint with claims := checkpoint.claims.map (derivedClaim resolver observations) }

def reportClaim (checkpoint : AgentCheckpoint) (claim : CheckpointClaim)
    (unresolvedHints : Finset (List Char)) (ambiguousMentions : Finset AmbiguousMention) :
    DerivedClaimReferences :=
  { checkpointId := checkpoint.checkpointId
    claimId := claim.claimId
    engineeringReferences := claim.engineeringReferences
    topicKeyHint := claim.topicKeyHint
    unresolvedHints
    ambiguousMentions
    applicabilityInherited := true }

def deriveReports (checkpoints : List AgentCheckpoint) : List DerivedClaimReferences :=
  checkpoints.flatMap fun checkpoint => checkpoint.claims.map fun claim =>
    reportClaim checkpoint (derivedClaim resolver observations claim)
      (claimDerivation resolver observations claim).unresolvedHints
      (claimDerivation resolver observations claim).ambiguousMentions

def replayReports (checkpoints : List AgentCheckpoint) : List DerivedClaimReferences :=
  checkpoints.flatMap fun checkpoint => checkpoint.claims.map fun claim =>
    reportClaim checkpoint claim
      (claimHints claim.statement claim.rationale (claimEvidenceSummaries observations claim)
        claim.engineeringReferences) ∅

end Derivation

def clampCount (count : Nat) : Nat :=
  min count (ordinalBound - 1)

def unionAll {α β : Type} [DecidableEq β] (items : List α) (set : α → Finset β) : Finset β :=
  items.foldl (fun union item => union ∪ set item) ∅

/-- The record of the derivations of one Episode, as it is written and read back. -/
def recordFromDerivations (derivations : List DerivedClaimReferences) (now : Nat) :
    ReferenceDerivationRecord where
  placed := clampCount (derivations.map fun derivation =>
    derivation.engineeringReferences.length).sum
  ambiguous := unionAll derivations (·.ambiguousMentions)
  unresolved := clampCount (derivations.map fun derivation => derivation.unresolvedHints.card).sum
  unresolvedSample :=
    ((unionAll derivations (·.unresolvedHints)).sort (· ≤ ·)).take maxUnresolvedSample
  reopened := false
  derivedAtUnixSeconds := if now < ordinalBound then some now else none

def EpisodeReferences.derives (episode : EpisodeReferences) (resolver : ClaimResolver) : Bool :=
  match episode.record with
  | none => true
  | some record => record.reopened || ambiguityAnswerChanged record.ambiguous resolver

def EpisodeReferences.derived (episode : EpisodeReferences) (resolver : ClaimResolver)
    (now : Nat) : EpisodeReferences :=
  { episode with
    checkpoints := episode.checkpoints.map (derivedCheckpoint resolver episode.observations)
    record := some (recordFromDerivations
      (deriveReports resolver episode.observations episode.checkpoints) now) }

section Store

variable (validate : EpisodeReferences → AgentCheckpoint → Result Unit)

def deriveEpisodeClaimReferences (store : ReferenceStore) (episodeId : WorkEpisodeId)
    (resolver : ClaimResolver) (clock : Int) :
    ReferenceStore × Result (List DerivedClaimReferences) :=
  match store.find? episodeId with
  | none =>
      (store, .error (invariantViolation "Work Episode disappeared inside transaction"))
  | some episode =>
      if episode.derives resolver then
        match (do
          episode.checkpoints.forM fun checkpoint =>
            validate episode (derivedCheckpoint resolver episode.observations checkpoint)
          unixSeconds clock) with
        | .error error => (store, .error error)
        | .ok now =>
            (store.updateWhere (fun row => row.episodeId = episodeId)
              (fun row => row.derived resolver now) (fun _ => rfl),
              .ok (deriveReports resolver episode.observations episode.checkpoints))
      else (store, .ok (replayReports episode.observations episode.checkpoints))

/-- Whether an Episode is reopened: its record names an ambiguity. -/
def EpisodeReferences.reopens (episode : EpisodeReferences) : Bool :=
  episode.record.any fun record => !record.reopened && decide (record.ambiguous ≠ ∅)

def EpisodeReferences.reopen (episode : EpisodeReferences) : EpisodeReferences :=
  { episode with record := episode.record.map fun record => { record with reopened := true } }

/-- Asks for every Episode with an ambiguity to be looked at again. -/
def reopenAmbiguousReferenceDerivations (store : ReferenceStore) : ReferenceStore × Nat :=
  (store.updateWhere EpisodeReferences.reopens EpisodeReferences.reopen (fun _ => rfl),
    store.rows.countP EpisodeReferences.reopens)

inductive ReferenceCall
  | derive (episodeId : WorkEpisodeId) (resolver : ClaimResolver) (clock : Int)
  | reopen

def performReferenceCall (store : ReferenceStore) : ReferenceCall → ReferenceStore
  | .derive episodeId resolver clock =>
      (deriveEpisodeClaimReferences validate store episodeId resolver clock).1
  | .reopen => (reopenAmbiguousReferenceDerivations store).1

def performReferenceCalls (store : ReferenceStore) (calls : List ReferenceCall) :
    ReferenceStore :=
  calls.foldl (performReferenceCall validate) store

end Store

end SharedContext
