import Mathlib.Data.Nat.Lattice
import SharedContext.EngineeringGraph.Resolver
import SharedContext.Library.BoundedWalk
import SharedContext.Library.Destutter
import SharedContext.Library.Entries

/-!
# The evidence of a retrieval

A Context is retrieved because its text, a scope, a hint or an artifact answers
the query, or because relations lead to it from a Context that does.  The
evidence of the Contexts is gathered for every Space a Context belongs to, and
the score of a Space that only relations reach is held behind the Spaces that
they start in.
-/

namespace SharedContext.Search

open EngineeringGraph

/-! ### Retrieval paths -/

inductive ContextPackMode
  | explicit
  | automaticInjection
  deriving DecidableEq

/-- Current source coordinates that a Task is about. -/
structure ResolvedFocus where
  repositoryId : RepositoryId
  locator : ArtifactLocator
  deriving DecidableEq

/-- One stable, authoritative Context relation hop from a retrieved Context. -/
structure ContextRelationRetrievalPath where
  sourceContextId : ContextId
  sourceRevisionId : RevisionId
  targetContextId : ContextId
  targetRevisionId : RevisionId
  kind : ContextRelationKind
  rationale : String
  supports : List String
  depth : Nat
  deriving DecidableEq

structure GraphArtifactRetrievalPath where
  resolvedFocus : ResolvedFocus
  repositoryId : RepositoryId
  artifactKey : ArtifactKey
  artifactKind : ArtifactKind
  referenceId : ReferenceId
  associationId : String
  associationKind : ArtifactAssociationKind
  matchBasis : MatchBasis
  resolutionStatus : ResolutionStatus
  confidenceBasisPoints : Nat
  artifactGeneration : String
  deriving DecidableEq

structure GraphResolutionDiagnosticPath where
  resolvedFocus : ResolvedFocus
  repositoryId : RepositoryId
  referenceId : ReferenceId
  resolutionStatus : ResolutionStatus
  candidateArtifactKeys : List ArtifactKey
  matchBases : List MatchBasis
  artifactGeneration : String
  deriving DecidableEq

inductive MatchField
  | title
  | statement
  | rationale
  | evidence
  | problemView
  | hintText
  deriving DecidableEq

structure ResolvedFocusTextFallbackExplanation where
  resolvedFocus : ResolvedFocus
  matchedComponents : List String
  matchedFields : List MatchField
  deriving DecidableEq

/-- The routes that the evidence of a Context records. -/
inductive TaskRetrievalPath
  | engineeringGraph (path : GraphArtifactRetrievalPath)
      (relationHops : List ContextRelationRetrievalPath)
  | contextRelation (hops : List ContextRelationRetrievalPath)
  | graphDiagnostic (diagnostic : GraphResolutionDiagnosticPath)
  | resolvedFocusTextFallback (explanation : ResolvedFocusTextFallbackExplanation)
  deriving DecidableEq

/-- The JSON texts that evidence is stored or sorted by, and the digest of an association. -/
structure RetrievalTexts where
  focus : ResolvedFocus → String
  path : TaskRetrievalPath → String
  associationId : ReferenceId → ContextId → RevisionId → ArtifactKey → String

def sortDedupPaths (texts : RetrievalTexts) (paths : List TaskRetrievalPath) :
    List TaskRetrievalPath :=
  (paths.insertionSort fun first second => texts.path first ≤ texts.path second).destutter (· ≠ ·)

theorem mem_sortDedupPaths {texts : RetrievalTexts} {path : TaskRetrievalPath}
    {paths : List TaskRetrievalPath} : path ∈ sortDedupPaths texts paths ↔ path ∈ paths := by
  rw [sortDedupPaths, mem_destutter_ne]
  exact (List.perm_insertionSort _ _).mem_iff

/-! ### The evidence of a Context -/

structure ScopeEvidence where
  dimension : String
  value : String
  deriving DecidableEq

inductive WorkingIntentHintField
  | artifactHints
  | interfaceHints
  deriving DecidableEq

inductive WorkingIntentHintTarget
  | spaceIntentFts
  | acceptedContextFts
  deriving DecidableEq

structure WorkingIntentHintTextChannel where
  sourceField : WorkingIntentHintField
  target : WorkingIntentHintTarget
  deriving DecidableEq

structure HintTextEvidence where
  queryTokens : Finset String
  matchedTokens : Finset String
  phraseMatch : Bool
  deriving DecidableEq

def HintTextEvidence.merge (hint other : HintTextEvidence) : HintTextEvidence where
  queryTokens := hint.queryTokens ∪ other.queryTokens
  matchedTokens := hint.matchedTokens ∪ other.matchedTokens
  phraseMatch := hint.phraseMatch || other.phraseMatch

abbrev HintText := BTreeMap WorkingIntentHintTextChannel HintTextEvidence

structure AcceptedContextEvidence where
  textualMatch : Bool
  matchedTokens : Finset String
  identifierMatchedTokens : Finset String
  phraseMatch : Bool
  matchedArtifacts : Finset String
  matchedScopes : Finset ScopeEvidence
  hintText : HintText
  graphPaths : List TaskRetrievalPath
  relationDepth : Option Nat

def AcceptedContextEvidence.default : AcceptedContextEvidence where
  textualMatch := false
  matchedTokens := ∅
  identifierMatchedTokens := ∅
  phraseMatch := false
  matchedArtifacts := ∅
  matchedScopes := ∅
  hintText := .empty
  graphPaths := []
  relationDepth := none

/-- Record one more route of relations to a Context. -/
def AcceptedContextEvidence.recordHop (depth : Nat) (path : TaskRetrievalPath)
    (evidence : AcceptedContextEvidence) : AcceptedContextEvidence :=
  { evidence with
    relationDepth := some (evidence.relationDepth.elim depth (min · depth))
    graphPaths := evidence.graphPaths ++ [path] }

def AcceptedContextEvidence.sortPaths (texts : RetrievalTexts)
    (evidence : AcceptedContextEvidence) : AcceptedContextEvidence :=
  { evidence with graphPaths := sortDedupPaths texts evidence.graphPaths }

/-- The route is an exact artifact of the Engineering Graph, without hops. -/
def TaskRetrievalPath.isExactArtifact : TaskRetrievalPath → Bool
  | .engineeringGraph _ [] => true
  | _ => false

def TaskRetrievalPath.isFocusFallback : TaskRetrievalPath → Bool
  | .resolvedFocusTextFallback _ => true
  | _ => false

/-! ### Coverage -/

def basisPointsScale : Nat := 10000
def automaticTextCoverageThresholdBasisPoints : Nat := 6000
def automaticMinAnswerableRatioBasisPoints : Nat := 2500
def automaticMinAnswerableQueryTokens : Nat := 2
def automaticIdentifierTokenCoverageWeight : Nat := 3
def automaticMinIdentifierQueryTokens : Nat := 2

structure AutomaticCoverageBasis where
  selected : List String
  answerable : List String

namespace AutomaticCoverageBasis

def selectedOnly (basis : AutomaticCoverageBasis) : AutomaticCoverageBasis :=
  ⟨basis.selected, basis.selected⟩

def answerableRatioSufficient (basis : AutomaticCoverageBasis) : Bool :=
  if basis.answerable = [] then false
  else if basis.selected.length < automaticMinAnswerableQueryTokens then true
  else if basis.answerable.length < automaticMinAnswerableQueryTokens then false
  else automaticMinAnswerableRatioBasisPoints ≤
    basis.answerable.length * basisPointsScale / basis.selected.length

end AutomaticCoverageBasis

def tokenCoverageBasisPoints (matched : Finset String) (queryTokens : List String) : Nat :=
  if queryTokens = [] then 0
  else
    let query := queryTokens.toFinset
    min ((matched ∩ query).card * basisPointsScale / query.card) basisPointsScale

/-- Coverage in which a matched identifier counts several times over. -/
def identifierWeightedCoverageBasisPoints (matched identifierMatched : Finset String)
    (queryTokens : List String) : Nat :=
  let plain := tokenCoverageBasisPoints matched queryTokens
  if queryTokens = [] then plain
  else
    let query := queryTokens.toFinset
    let matchedCount := (matched ∩ query).card
    let identifierCount := (identifierMatched ∩ (query ∩ matched)).card
    if identifierCount < automaticMinIdentifierQueryTokens then plain
    else
      let weighted :=
        matchedCount + identifierCount * (automaticIdentifierTokenCoverageWeight - 1)
      max (min (weighted * basisPointsScale / query.card) basisPointsScale) plain

def HintTextEvidence.coverageBasisPoints (hint : HintTextEvidence) : Nat :=
  if hint.queryTokens = ∅ then 0
  else
    min ((hint.matchedTokens ∩ hint.queryTokens).card * basisPointsScale / hint.queryTokens.card)
      basisPointsScale

def automaticCoveragePasses (coverage : Nat) (basis : AutomaticCoverageBasis) : Bool :=
  automaticTextCoverageThresholdBasisPoints ≤ coverage && basis.answerableRatioSufficient

def hintCoverage (hints : HintText) : Nat :=
  hints.keys.sup fun channel =>
    (hints.get? channel).elim 0 HintTextEvidence.coverageBasisPoints

def automaticDirectContextTextEligible (context : AcceptedContextEvidence)
    (basis : AutomaticCoverageBasis) : Bool :=
  if context.phraseMatch || decide (context.hintText.Any fun _ hint => hint.phraseMatch) then true
  else
    let coverage := max
      (identifierWeightedCoverageBasisPoints context.matchedTokens
        context.identifierMatchedTokens basis.answerable)
      (hintCoverage context.hintText)
    if automaticCoveragePasses coverage basis then true
    else
      let directTextChannels := (if context.textualMatch then 1 else 0) + context.hintText.keys.card
      decide (2 ≤ directTextChannels) ||
        (decide (0 < directTextChannels) && decide (context.matchedScopes ≠ ∅))

/-- Whether relations may be followed from a Context. -/
def contextIsPositiveSeed (evidence : AcceptedContextEvidence) (mode : ContextPackMode)
    (basis : AutomaticCoverageBasis) : Bool :=
  if evidence.graphPaths.any TaskRetrievalPath.isExactArtifact ||
      decide (evidence.matchedArtifacts ≠ ∅) then true
  else if mode = .explicit then
    evidence.textualMatch || decide (evidence.hintText.keys ≠ ∅) ||
      decide (evidence.matchedScopes ≠ ∅)
  else automaticDirectContextTextEligible evidence basis

end SharedContext.Search
