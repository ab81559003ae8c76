import Mathlib.Data.List.Sort
import Mathlib.Data.Prod.Lex
import Mathlib.Data.String.Basic
import SharedContext.Domain.Ids
import SharedContext.Library.BTreeMap
import SharedContext.Library.Table

/-!
# The second hop of a retrieval

Lane B admits the accepted Contexts whose document vector is close to that of a
seed.  It encodes nothing: both vectors are looked up, and a Context without a
vector of the same length as that of a seed is skipped and counted.
-/

namespace SharedContext.Search

/-! ### The corpus -/

structure ContextItemRow where
  contextId : ContextId
  spaceId : SpaceId
  governanceStatus : String
  acceptedRevisionId : Option RevisionId
  autoInjectionEligible : Bool
  supersededBy : Option String
  deriving DecidableEq

structure ContextRevisionRow where
  revisionId : RevisionId
  contextId : ContextId
  problemView : Option String
  statement : String
  rationale : String
  lifecycle : String
  evidenceCompleteness : Nat
  deriving DecidableEq

structure EvidenceRow where
  revisionId : RevisionId
  supports : String
  interpretation : String
  contentJson : String
  deriving DecidableEq

/-- Some text is left when the blanks around it are removed. -/
def hasTrimmedText (text : String) : Bool :=
  text.toList.any (· ≠ ' ')

/-- The tables of the projection that the second hop reads. -/
structure Hop2Tables where
  contextItem : Table ContextItemRow ContextItemRow.contextId
  contextRevision : Table ContextRevisionRow ContextRevisionRow.revisionId
  evidence : List EvidenceRow

/-- The revision is the accepted knowledge of its Context, and safe to inject. -/
def SafeAcceptedContext (evidence : List EvidenceRow) (item : ContextItemRow)
    (revision : ContextRevisionRow) : Prop :=
  item.governanceStatus = "accepted" ∧ item.acceptedRevisionId = some revision.revisionId ∧
    item.autoInjectionEligible = true ∧ item.supersededBy = none ∧
    revision.lifecycle = "accepted" ∧ revision.evidenceCompleteness = 1000 ∧
    ∃ row ∈ evidence, row.revisionId = revision.revisionId ∧ hasTrimmedText row.supports = true ∧
      hasTrimmedText row.interpretation = true ∧ row.contentJson ≠ "\x7b\x7d"

instance (evidence : List EvidenceRow) (item : ContextItemRow) (revision : ContextRevisionRow) :
    Decidable (SafeAcceptedContext evidence item revision) := by
  unfold SafeAcceptedContext
  infer_instance

/-- One accepted Context as the second hop sees it. -/
structure Hop2Context where
  contextId : ContextId
  revisionId : RevisionId
  spaceId : SpaceId
  identifiers : Finset String
  deriving DecidableEq

/-- Every accepted, injectable Context with the identifiers its prose spells
out, in the order of the Contexts. -/
def readHop2Corpus (normalizedIdentifiers : List String → Finset String) (tables : Hop2Tables) :
    List Hop2Context :=
  let rows := tables.contextItem.rows.flatMap fun item =>
    (tables.contextRevision.rows.filter fun revision =>
      revision.contextId = item.contextId ∧
        SafeAcceptedContext tables.evidence item revision).map fun revision =>
      ⟨item.contextId, revision.revisionId, item.spaceId,
        normalizedIdentifiers
          [revision.statement, revision.rationale, revision.problemView.getD ""]⟩
  rows.insertionSort fun first second => first.contextId ≤ second.contextId

/-! ### Admission -/

structure SeedMatch where
  seedContextId : ContextId
  seedRevisionId : RevisionId
  scoreBasisPoints : Nat
  sharedIdentifiers : List String
  deriving DecidableEq

/-- A Context that was admitted, by its strongest seed and by others. -/
structure LaneBHit where
  contextId : ContextId
  revisionId : RevisionId
  spaceId : SpaceId
  seed : SeedMatch
  alsoAdmittedBy : List SeedMatch
  deriving DecidableEq

structure Hop2AdmissionSample where
  seedRevisionId : RevisionId
  candidateRevisionId : RevisionId
  scoreBasisPoints : Nat
  admitted : Bool
  deriving DecidableEq

structure Hop2Admission where
  hits : List LaneBHit
  skippedMissingVector : Nat
  seedsMissingVector : Nat
  samples : List Hop2AdmissionSample
  deriving DecidableEq

def Hop2Admission.default : Hop2Admission :=
  ⟨[], 0, 0, []⟩

/-- Strongest first, then by the identity of the seed. -/
def SeedMatch.order (found : SeedMatch) : Lex (Natᵒᵈ × ContextId) :=
  toLex (OrderDual.toDual found.scoreBasisPoints, found.seedContextId)

/-- By score, then by the shared identifiers, then by identity. -/
def LaneBHit.order (hit : LaneBHit) : Lex (Natᵒᵈ × Lex (Natᵒᵈ × ContextId)) :=
  toLex (OrderDual.toDual hit.seed.scoreBasisPoints,
    toLex (OrderDual.toDual hit.seed.sharedIdentifiers.length, hit.contextId))

section Admission

variable {Component : Type} (similarity : List Component → List Component → Nat)
  (vectors : BTreeMap RevisionId (List Component)) (floorBasisPoints : Nat)

def seedVector (seed : Hop2Context) : Option (List Component) :=
  match vectors.get? seed.revisionId with
  | some [] => none
  | found => found

/-- What a seed decides about a candidate; vectors of different lengths are not
compared. -/
def judgeSeed (candidate : Hop2Context) (candidateVector : List Component) (seed : Hop2Context) :
    Option (Hop2Context × Nat) :=
  match seedVector vectors seed with
  | none => none
  | some vector =>
      if vector.length ≠ candidateVector.length then none
      else some (seed, similarity vector candidateVector)

def sampleOf (candidate : Hop2Context) (judged : Hop2Context × Nat) : Hop2AdmissionSample :=
  ⟨judged.1.revisionId, candidate.revisionId, judged.2, floorBasisPoints ≤ judged.2⟩

def matchOf (candidate : Hop2Context) (judged : Hop2Context × Nat) : Option SeedMatch :=
  if floorBasisPoints ≤ judged.2 then
    some ⟨judged.1.contextId, judged.1.revisionId, judged.2,
      BTreeMap.ordered (judged.1.identifiers ∩ candidate.identifiers)⟩
  else none

def judgeCandidate (seeds : List Hop2Context) (admission : Hop2Admission)
    (candidate : Hop2Context) : Hop2Admission :=
  match vectors.get? candidate.revisionId with
  | none => { admission with skippedMissingVector := admission.skippedMissingVector + 1 }
  | some candidateVector =>
      match seeds.filterMap (judgeSeed similarity vectors candidate candidateVector) with
      | [] => { admission with skippedMissingVector := admission.skippedMissingVector + 1 }
      | first :: others =>
          let judged := first :: others
          let samples := admission.samples ++ judged.map (sampleOf floorBasisPoints candidate)
          let matched := (judged.filterMap (matchOf floorBasisPoints candidate)).insertionSort
            fun left right => left.order ≤ right.order
          match matched with
          | [] => { admission with samples := samples }
          | seed :: alsoAdmittedBy =>
              { admission with
                samples := samples
                hits := admission.hits ++
                  [⟨candidate.contextId, candidate.revisionId, candidate.spaceId, seed,
                    alsoAdmittedBy⟩] }

local instance lawfulBEq_seed : LawfulBEq (ContextId × RevisionId) := inferInstance

/-- Admit the accepted Contexts whose document vector is close to a seed's. -/
def laneBHits (corpus : List Hop2Context) (seeds : List (ContextId × RevisionId)) :
    Hop2Admission :=
  if seeds = [] then .default
  else
    let isSeed := fun context : Hop2Context => (context.contextId, context.revisionId) ∈ seeds
    let seedContexts := corpus.filter isSeed
    let candidates := corpus.filter fun context => ¬ isSeed context
    let seedsMissingVector :=
      (seedContexts.filter fun seed => (seedVector vectors seed).isNone).length
    let scoredSeeds := seedContexts.filter fun seed => (seedVector vectors seed).isSome
    let admission := candidates.foldl
      (judgeCandidate similarity vectors floorBasisPoints scoredSeeds)
      { Hop2Admission.default with seedsMissingVector := seedsMissingVector }
    { admission with
      hits := admission.hits.insertionSort fun left right => left.order ≤ right.order }

end Admission

end SharedContext.Search
