import SharedContext.Search.CandidateTargets

/-!
# Assessing a target

How one retrieved target relates to the Candidate, with the paths and the
reasons that a reviewer is shown.
-/

namespace SharedContext.Search

def statementSimilarityReviewBasisPoints : Nat := 5000

def statementNearDuplicateBasisPoints : Nat := 5000

def statementBigramParaphraseBasisPoints : Nat := 3000

def sharedIdentifierSupportOverlap : Nat := 3

/-- What the relation rules ask about one target. -/
structure TargetFacts where
  canonical : Bool
  statement : Bool
  topic : Bool
  explicitOrGraph : Bool
  sharedArtifact : Bool
  similarity : Nat
  statementDiffers : Bool
  negationConflict : Bool
  topicNegationConflict : Bool
  topicBigramParaphrase : Bool
  accepted : Bool
  sharedIdentifiers : Nat
  sameKind : Bool

namespace TargetFacts

variable (facts : TargetFacts)

def topicStatementConflict : Bool :=
  facts.topic && facts.statementDiffers &&
    (facts.topicNegationConflict || !facts.topicBigramParaphrase)

/-- Shared identifiers are only strong within one Context kind. -/
def strongIdentifier : Bool :=
  decide (sharedIdentifierStrongOverlap ≤ facts.sharedIdentifiers) && facts.sameKind

def identifierRestates : Bool :=
  decide (statementSimilarityReviewBasisPoints ≤ facts.similarity) ||
    decide (sharedIdentifierSupportOverlap ≤ facts.sharedIdentifiers)

def restatesTopic : Bool :=
  facts.topic && !facts.statementDiffers

/-- A rewritten statement of an accepted Context, with no topic or artifact in common. -/
def nearDuplicate : Bool :=
  facts.accepted && !facts.topic && !facts.sharedArtifact && facts.statementDiffers &&
    !facts.negationConflict && decide (statementNearDuplicateBasisPoints ≤ facts.similarity)

def relation : CandidateAssessmentRelation :=
  if facts.negationConflict then .potentialContradiction
  else if facts.canonical || facts.restatesTopic || facts.nearDuplicate then .exactDuplicate
  else if facts.statement then .supports
  else if facts.topic && facts.explicitOrGraph then .revises
  else if facts.strongIdentifier then
    if facts.identifierRestates then .supports else .potentialContradiction
  else if facts.topicStatementConflict || (facts.statementDiffers && facts.sharedArtifact &&
      decide (statementSimilarityReviewBasisPoints ≤ facts.similarity)) then
    .potentialContradiction
  else .unresolvedRelated

def trigger : String :=
  if facts.negationConflict then
    s!"Path: statement similarity {facts.similarity} basis points but negation markers differ"
  else if facts.canonical then
    s!"Path: canonical draft equality at statement similarity {facts.similarity} basis points"
  else if facts.restatesTopic then "Path: normalized statement equality on one topic key"
  else if facts.nearDuplicate then
    (s!"Path: statement similarity {facts.similarity} basis points against an accepted Context " ++
      s!"at or above the {statementNearDuplicateBasisPoints} near-duplicate threshold")
  else if facts.statement then
    if 10000 ≤ facts.similarity then "Path: normalized statement equality"
    else
      (s!"Path: statement similarity {facts.similarity} basis points at or above the " ++
        s!"{statementSimilarityStrongBasisPoints} threshold")
  else if facts.topic && facts.explicitOrGraph then
    "Path: topic equality with an explicit Context or exact Artifact Graph link"
  else if facts.strongIdentifier then
    if facts.identifierRestates then
      (s!"Path: {facts.sharedIdentifiers} shared repository identifiers on the same Context " ++
        s!"kind, statement similarity {facts.similarity} basis points")
    else
      (s!"Path: {facts.sharedIdentifiers} shared repository identifiers on the same Context " ++
        s!"kind while the statement differs, similarity {facts.similarity} basis points")
  else if facts.topic && facts.statementDiffers then
    if facts.topicNegationConflict then
      "Path: topic equality with a differing statement and a negation/polarity marker mismatch"
    else if facts.topicStatementConflict then
      ("Path: topic equality with a differing statement, bigram overlap below the " ++
        s!"{statementBigramParaphraseBasisPoints} paraphrase threshold")
    else
      ("Path: topic equality with a differing statement read as a paraphrase at or above the " ++
        s!"{statementBigramParaphraseBasisPoints} bigram threshold")
  else if facts.relation = .potentialContradiction then
    s!"Path: a shared exact Artifact with statement similarity {facts.similarity} basis points"
  else if facts.sharedArtifact then
    (s!"Path: a shared exact Artifact with statement similarity {facts.similarity} basis points " ++
      s!"below the {statementSimilarityReviewBasisPoints} review threshold")
  else s!"Path: retrieval proximity only, statement similarity {facts.similarity} basis points"

def confidence : CandidateConfidence :=
  match facts.relation with
  | .exactDuplicate =>
      if facts.canonical then
        ⟨10000, "The complete canonical Candidate draft equals the immutable Context revision"⟩
      else if facts.nearDuplicate then
        ⟨9500, ("The statement restates a conclusion the knowledge base already accepted; " ++
          "confirming it again needs an explicit supersedes or contradicts decision")⟩
      else
        ⟨10000, ("The statement and the topic key both equal the immutable Context revision; " ++
          "this restates a fact the knowledge base already holds")⟩
  | .supports =>
      ⟨9000, ("The statement is equal while rationale or Evidence differs; this is supporting " ++
        "evidence, not a duplicate")⟩
  | .revises =>
      ⟨8500, ("The non-empty topic matches and an explicit Context or exact Artifact Graph path " ++
        "links the target")⟩
  | .potentialContradiction =>
      ⟨6500, ("Topic or applicability overlaps while the statement differs; human contradiction " ++
        "review is required")⟩
  -- No target is ever assessed as novel.
  | .unresolvedRelated | .novel =>
      ⟨4000, ("Retrieval found related text or engineering proximity, but no factual relation " ++
        "was established")⟩

end TargetFacts

def targetFacts (text : SearchText) (candidate : ContextRevisionDraft) (state : TargetState) :
    TargetFacts where
  canonical := state.hasChannel .canonical
  statement := state.hasChannel .statement
  topic := state.hasChannel .topic
  explicitOrGraph := state.hasChannel .explicit || state.hasChannel .graph
  sharedArtifact := state.paths.any fun path => path matches .exactArtifactGraph _
  similarity := state.statementSimilarity
  statementDiffers := decide
    (text.normalizeSearchText state.revision.statement ≠
      text.normalizeSearchText candidate.statement)
  negationConflict := state.negationConflict
  topicNegationConflict := decide
    (negationMarkers text candidate.statement ≠ negationMarkers text state.revision.statement)
  topicBigramParaphrase := decide
    (statementBigramParaphraseBasisPoints ≤
      statementBigramJaccardBasisPoints text candidate.statement state.revision.statement)
  accepted := state.accepted
  sharedIdentifiers := state.sharedIdentifiers.length
  sameKind := decide (state.revision.kind = candidate.kind)

/-- Names the shared identifiers, once they are enough. -/
def identifierReason (shared : List String) (sameKind : Bool) : List String :=
  let named := String.intercalate ", " shared
  if shared.length < sharedIdentifierStrongOverlap then []
  else if sameKind then [s!"Shared repository identifiers: {named}"]
  else [s!"Shared repository identifiers on a different Context kind: {named}"]

def safetyReason (state : TargetState) : String :=
  match state.retirementReason with
  | some retirementReason => retirementReason
  | none =>
      if state.spaceConflicted then "Target Space Intent is conflicted; no winner was selected"
      else "Target Context is not safe for automatic factual promotion"

def assessTarget (text : SearchText) (candidate : ContextRevisionDraft)
    (target : ContextRevisionRef) (state : TargetState) : CandidateRelationAssessment :=
  let facts := targetFacts text candidate state
  let found :=
    if facts.nearDuplicate then state.addPath (.nearDuplicateStatement facts.similarity)
    else state
  let found :=
    if state.safe then found else found.addPath (.safetyDiagnostic (safetyReason state))
  { relation := facts.relation
    target := some target
    confidence := facts.confidence
    paths := found.paths
    reasons := [facts.confidence.rationale, facts.trigger] ++
      identifierReason state.sharedIdentifiers facts.sameKind }

/-- The one way to write down that retrieval returned nothing. -/
def novelAssessment : CandidateRelationAssessment where
  relation := .novel
  target := none
  confidence :=
    ⟨6000, "No exact, Graph, topic, scope, or FTS candidate survived retrieval"⟩
  paths := [.noSufficientCandidate]
  reasons := ["No sufficiently related immutable Context revision was retrieved"]

end SharedContext.Search
