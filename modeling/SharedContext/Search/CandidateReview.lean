import Mathlib.Data.List.DropRight
import SharedContext.Domain.Task
import SharedContext.Search.CandidateAssessments

/-!
# Reviewing a Candidate

The retrieved targets are ranked, cut and assessed, Spaces are recommended, the
result is trimmed to its token budget, and what is left decides the status under
which the Candidate goes to review.
-/

namespace SharedContext.Search

/-! ### Ranking -/

def rankBefore (left right : ContextRevisionRef × TargetState) : Prop :=
  right.2.score < left.2.score ∨ left.2.score = right.2.score ∧ left.1.le right.1 = true

instance : DecidableRel rankBefore :=
  fun left right => by unfold rankBefore; infer_instance

def minCandidateAnalysisTokenBudget : Nat := 1024

def maxCandidateAnalysisTokenBudget : Nat := 32768

def maxCandidateAnalysisTopK : Nat := 32

/-- Complete, Task-owned input to one rebuildable Candidate analysis. -/
structure CandidateAnalysisRequest where
  candidate : ContextCandidate
  sourceTaskId : TaskId
  sourceWorkingIntent : WorkingIntentSnapshot
  sourceTaskSignals : List TaskSignal
  hasBlockingUnknowns : Bool
  explicitRelatedContexts : List ContextRevisionRef
  artifactRefs : List ArtifactRef
  proposedSpaceGroupSpaceId : Option SpaceId
  tokenBudget : Nat
  topK : Nat

def validateRequest (request : CandidateAnalysisRequest) : Result Unit := do
  Result.require
    (minCandidateAnalysisTokenBudget ≤ request.tokenBudget ∧
      request.tokenBudget ≤ maxCandidateAnalysisTokenBudget)
    (invalid ("Candidate analysis token_budget must be between " ++
      s!"{minCandidateAnalysisTokenBudget} and {maxCandidateAnalysisTokenBudget}"))
  Result.require (request.topK ≠ 0 ∧ request.topK ≤ maxCandidateAnalysisTopK)
    (invalid s!"Candidate analysis top_k must be between 1 and {maxCandidateAnalysisTopK}")

/-- Every target that some channel retrieved, best first. -/
def rankedTargets (text : SearchText) (reads : AnalysisReads)
    (request : CandidateAnalysisRequest) : Result Targets := do
  let content := request.candidate.content
  let targets := addExplicitChannel request.explicitRelatedContexts
    (addIdentifierChannel text content (addExactChannels text content (collectTargets reads)))
  let targets ← addGraphChannel reads.graph request.artifactRefs targets
  let targets := (addBm25Channel reads.bm25.data targets).map fun (target, state) =>
    (target, state.scored)
  pure ((targets.filter fun entry => !entry.2.channels.isEmpty).insertionSort rankBefore)

/-! ### Space recommendations -/

structure SpaceState where
  score : Nat
  paths : List CandidateSpaceRecommendationPath
  safeStrongTarget : Bool
  intentConflicted : Bool

def SpaceState.empty : SpaceState :=
  ⟨0, [], false, false⟩

abbrev SpaceStates := List (SpaceId × SpaceState)

def pushSpacePath (path : CandidateSpaceRecommendationPath) (state : SpaceState) : SpaceState :=
  if path ∈ state.paths then state else { state with paths := state.paths ++ [path] }

/-- Change the state of a Space; a new one starts empty. -/
def updateSpace (spaceId : SpaceId) (change : SpaceState → SpaceState) (spaces : SpaceStates) :
    SpaceStates :=
  if spaces.any fun entry => entry.1 = spaceId then
    spaces.map fun entry => if entry.1 = spaceId then (entry.1, change entry.2) else entry
  else spaces ++ [(spaceId, change SpaceState.empty)]

def relationWeight : CandidateAssessmentRelation → Nat
  | .exactDuplicate => 1000
  | .supports => 850
  | .revises => 800
  | .potentialContradiction => 400
  | .unresolvedRelated => 200
  | .novel => 0

def primarySpaceThreshold : Nat := 90000

def proposedSpaceGroupScore : Nat := 1000000

def proposedSpaceTitleMaxChars : Nat := 40

section Recommendations

/-- The Space of a Context, and whether its Intent is conflicted. -/
def ownerSpace (projection : DomainProjection) (contextId : ContextId) : Option (SpaceId × Bool) :=
  (BTreeMap.ordered projection.spaces.keys).reverse.findSome? fun spaceId =>
    (projection.spaces.get? spaceId).bind fun space =>
      if space.contexts.values.any fun context => context.contextId = contextId then
        some (spaceId, decide (1 < space.intent.heads.card))
      else none

def addAssessmentSpace (projection : DomainProjection) (ranked : Targets) (spaces : SpaceStates)
    (entry : CandidateRelationAssessment × Nat) : SpaceStates :=
  let (assessment, rank) := entry
  match assessment.target with
  | none => spaces
  | some target =>
      match ownerSpace projection target.contextId with
      | none => spaces
      | some (spaceId, conflicted) =>
          let safe := ((ranked.find? fun other => other.1 = target).map fun other =>
            other.2.safe).getD false
          updateSpace spaceId
            (fun state => pushSpacePath (.candidateTarget assessment.relation target)
              { state with
                score := state.score + rrf (relationWeight assessment.relation) (rank + 1)
                intentConflicted := state.intentConflicted || conflicted
                safeStrongTarget := state.safeStrongTarget ||
                  (safe && (assessment.relation = .exactDuplicate ||
                    assessment.relation = .supports || assessment.relation = .revises)) })
            spaces

def addAssociationSpaces (weight : Nat) (candidateIntent : Bool)
    (associations : List TaskSpaceAssociation) (spaces : SpaceStates) : SpaceStates :=
  associations.zipIdx.foldl
    (fun spaces (association, rank) =>
      updateSpace association.spaceId
        (fun state => pushSpacePath
          (if candidateIntent && !association.matchedIntentFields.isEmpty then
            .spaceIntentMatch association.matchedIntentFields
          else .sourceTaskAssociation (String.intercalate "; " association.reasons))
          { state with score := state.score + rrf weight (rank + 1) })
        spaces)
    spaces

/-- A Space whose Intent has several heads is only shown. -/
def markIntentConflict (projection : DomainProjection) (entry : SpaceId × SpaceState) :
    SpaceId × SpaceState :=
  match projection.spaces.get? entry.1 with
  | none => entry
  | some space =>
      if 1 < space.intent.heads.card then
        (entry.1, pushSpacePath (.intentConflict space.intent.heads.card)
          { entry.2 with intentConflicted := true })
      else entry

def stripSystemSuggestionPrefix (goal : String) : List String :=
  let separators := [':', '-', '\u2014']
  let words := splitWhitespace goal
  let lowered (word : List Char) := word.map Char.toLower
  match words with
  | first :: second :: rest =>
      if lowered first.toList = "system".toList ∧
          lowered (second.toList.rdropWhile fun character => character ∈ separators) =
            "suggestion".toList then
        match rest with
        | third :: more =>
            if third.toList.all fun character => character ∈ separators then more else rest
        | [] => []
      else words
  | _ => words

def proposedSpaceTitle (goal : String) : String :=
  let normalized := String.intercalate " " (stripSystemSuggestionPrefix goal)
  if normalized = "" then "Task intent"
  else if normalized.toList.length ≤ proposedSpaceTitleMaxChars then normalized
  else
    String.ofList
      ((normalized.toList.take proposedSpaceTitleMaxChars).rdropWhile isWhiteSpace ++ ['\u2026'])

def proposedIntent (source : WorkingIntentSnapshot) : IntentSnapshot where
  title := proposedSpaceTitle source.goal
  problem := source.currentDirection.getD source.goal
  desiredOutcome := source.goal
  inScope := if source.inScope = [] then [source.goal] else source.inScope
  outOfScope := source.outOfScope
  acceptanceConditions :=
    if source.acceptanceConditions = [] then [source.goal] else source.acceptanceConditions
  domainTerms := source.domains

def isPrimaryCandidate (entry : SpaceId × SpaceState) : Bool :=
  !entry.2.intentConflicted && decide (primarySpaceThreshold ≤ entry.2.score) &&
    entry.2.safeStrongTarget

def existingRecommendation (role : RecommendedSpaceRole) (entry : SpaceId × SpaceState) :
    CandidateSpaceRecommendation :=
  .existing entry.1 role
    (if entry.2.intentConflicted then
      "Related Space is shown diagnostically; its Intent heads conflict and no winner was selected"
    else if role = .primary then
      ("Fused Candidate targets, Task association and Space Intent evidence exceed the Primary " ++
        "review threshold")
    else "Space remains a non-binding related review candidate")
    ⟨min (entry.2.score / 20) 10000, s!"Deterministic RRF score {entry.2.score}"⟩
    entry.2.paths

def rankedSpaces (reads : AnalysisReads) (request : CandidateAnalysisRequest)
    (groupKey : ProposedSpaceGroupKey) (assessments : List CandidateRelationAssessment)
    (ranked : Targets) : SpaceStates :=
  let projection := reads.snapshot.data
  let spaces := assessments.zipIdx.foldl (addAssessmentSpace projection ranked) []
  let spaces := addAssociationSpaces 600 true reads.candidateSpaces.data
    (addAssociationSpaces 500 false reads.sourceSpaces.data spaces)
  let spaces :=
    match request.proposedSpaceGroupSpaceId with
    | none => spaces
    | some spaceId =>
        updateSpace spaceId
          (fun state => pushSpacePath (.proposedSpaceGroupResolved groupKey)
            { state with
              score := state.score + proposedSpaceGroupScore
              safeStrongTarget := true })
          spaces
  (spaces.map (markIntentConflict projection)).insertionSort fun left right =>
    right.2.score < left.2.score ∨ left.2.score = right.2.score ∧ left.1 ≤ right.1

def recommendSpaces (reads : AnalysisReads) (request : CandidateAnalysisRequest)
    (groupKey : ProposedSpaceGroupKey) (assessments : List CandidateRelationAssessment)
    (ranked : Targets) : List CandidateSpaceRecommendation :=
  let spaces := (rankedSpaces reads request groupKey assessments ranked).take request.topK
  let primary := spaces.findIdx? isPrimaryCandidate
  let existing := spaces.zipIdx.map fun (entry, index) =>
    existingRecommendation (if primary = some index then .primary else .related) entry
  if primary = none ∧ request.proposedSpaceGroupSpaceId = none then
    existing ++
      [.proposedNewSpaceIntent (some groupKey) (proposedIntent request.sourceWorkingIntent)
        ("No safe existing Space exceeded the Primary threshold; confirming here opens a " ++
          "provisional Space named from the Task goal")
        ⟨6000, "No safe fused existing-Space candidate reached the Primary threshold"⟩
        [.proposedFromTaskIntentRevision groupKey]]
  else existing

end Recommendations

/-! ### Budget -/

abbrev ReviewMaterial := CandidateAnalysis × List CandidateSpaceRecommendation

def eraseLast {α : Type} (test : α → Bool) (items : List α) : List α :=
  (items.reverse.eraseP test).reverse

/-- One step of trimming: the last Related Space goes, then the last assessment
but one. -/
def trim (material : ReviewMaterial) : Option ReviewMaterial :=
  if material.2.any CandidateSpaceRecommendation.isRelated then
    some (material.1, eraseLast CandidateSpaceRecommendation.isRelated material.2)
  else if 1 < material.1.assessments.length then
    some
      ({ material.1 with
          assessments := material.1.assessments.dropLast
          omittedTargetCount := material.1.omittedTargetCount + 1 }, material.2)
  else none

theorem length_eraseLast {α : Type} {test : α → Bool} {items : List α}
    (present : items.any test = true) : (eraseLast test items).length < items.length := by
  obtain ⟨item, member, passes⟩ := List.any_eq_true.mp present
  have shorter := List.length_eraseP_of_mem (List.mem_reverse.mpr member) passes
  have positive : 0 < items.length := List.length_pos_of_mem member
  rw [eraseLast, List.length_reverse, shorter, List.length_reverse]
  omega

theorem trim_shrinks {material next : ReviewMaterial} (trimmed : trim material = some next) :
    next.2.length + next.1.assessments.length <
      material.2.length + material.1.assessments.length := by
  unfold trim at trimmed
  split_ifs at trimmed with related several
  · cases trimmed
    have shorter := length_eraseLast related
    change (eraseLast _ _).length + material.1.assessments.length < _
    omega
  · cases trimmed
    change material.2.length + material.1.assessments.dropLast.length < _
    rw [List.length_dropLast]
    omega

def measured (estimateTokens : ReviewMaterial → Nat) (material : ReviewMaterial) :
    ReviewMaterial :=
  ({ material.1 with estimatedTokens := estimateTokens material }, material.2)

def enforceBudget (estimateTokens : ReviewMaterial → Nat) (material : ReviewMaterial) :
    Result ReviewMaterial :=
  if estimateTokens material ≤ material.1.tokenBudget then
    .ok (measured estimateTokens material)
  else
    match _trimmed : trim (measured estimateTokens material) with
    | some next => enforceBudget estimateTokens next
    | none =>
        .error (invalid
          "Candidate analysis token budget cannot hold one assessment and its review metadata")
termination_by material.2.length + material.1.assessments.length
decreasing_by
  have shrinks := trim_shrinks _trimmed
  exact shrinks

/-! ### Status -/

def reviewStatus (analysis : CandidateAnalysis)
    (recommendations : List CandidateSpaceRecommendation) (hasBlockingUnknowns : Bool) :
    AutomaticCandidateStatus :=
  if analysis.assessments.any fun assessment => assessment.relation = .exactDuplicate then
    .exactDuplicateReview
  else if analysis.assessments.any fun assessment =>
      assessment.relation = .potentialContradiction then
    .potentialContradictionReview
  else if !recommendations.any CandidateSpaceRecommendation.isPrimary then .needsSpaceReview
  else if hasBlockingUnknowns || analysis.status = .failed then .needsEvidence
  else .readyForReview

def aggregateConfidence (assessments : List CandidateRelationAssessment) : CandidateConfidence where
  basisPoints := (assessments.map fun assessment => assessment.confidence.basisPoints).foldl max 0
  rationale := "Highest typed relationship confidence after deterministic fusion"

/-! ### The analysis -/

structure AnalysisTools where
  text : SearchText
  intentText : IntentText
  groupKeyFromTask : TaskId → ProposedSpaceGroupKey
  /-- A fourth of the bytes of the JSON text, rounded up. -/
  estimateTokens : ReviewMaterial → Nat

structure CandidateAnalysisResult where
  analysis : CandidateAnalysis
  spaceRecommendations : List CandidateSpaceRecommendation
  confidence : CandidateConfidence
  candidateStatus : AutomaticCandidateStatus

/-- Every read was made in the generation of the snapshot. -/
def requireOneGeneration (reads : AnalysisReads) : Result Unit :=
  [(reads.retirements.indexedTreeOid, reads.retirements.projectionGeneration),
    (reads.bm25.indexedTreeOid, reads.bm25.projectionGeneration),
    (reads.sourceSpaces.indexedTreeOid, reads.sourceSpaces.projectionGeneration),
    (reads.candidateSpaces.indexedTreeOid, reads.candidateSpaces.projectionGeneration)].forM
    fun (tree, generation) =>
      Result.require
        (tree = reads.snapshot.indexedTreeOid ∧
          generation = reads.snapshot.projectionGeneration)
        ⟨.staleState, "Candidate analysis projection changed during retrieval; retry"⟩

/-- The assessments before any budget: those of the best targets, or that there are none. -/
def topAssessments (text : SearchText) (request : CandidateAnalysisRequest) (ranked : Targets) :
    List CandidateRelationAssessment :=
  let assessments := (ranked.take request.topK).map fun (target, state) =>
    assessTarget text request.candidate.content target state
  if assessments = [] then [novelAssessment] else assessments

/-- The review of a Candidate before its budget is enforced. -/
def reviewMaterial (tools : AnalysisTools) (reads : AnalysisReads)
    (request : CandidateAnalysisRequest) (ranked : Targets) : ReviewMaterial :=
  let assessments := topAssessments tools.text request ranked
  ({ status := .complete
     assessments := assessments
     contextTreeOid := some reads.snapshot.indexedTreeOid
     contextGeneration := some reads.snapshot.projectionGeneration
     graphContextTreeOid := reads.graph.bind EngineeringProjectionSnapshot.contextTreeOid
     artifactGeneration := reads.graph.map EngineeringProjectionSnapshot.artifactGeneration
     tokenBudget := request.tokenBudget
     estimatedTokens := 0
     omittedTargetCount := ranked.length - assessments.length
     errorCode := none },
    recommendSpaces reads request (tools.groupKeyFromTask request.sourceTaskId) assessments
      (ranked.take request.topK))

def analyzeCandidate (tools : AnalysisTools) (reads : AnalysisReads)
    (request : CandidateAnalysisRequest) : Result CandidateAnalysisResult := do
  validateRequest request
  request.candidate.content.validate
  request.sourceWorkingIntent.validate tools.intentText
  TaskSignal.validateCollection request.sourceTaskSignals
  Result.require
    (∀ spaceId ∈ request.proposedSpaceGroupSpaceId, spaceId ∈ reads.snapshot.data.spaces.keys)
    (invalid "Proposed Space group mapping points to an unavailable Space")
  requireOneGeneration reads
  let ranked ← rankedTargets tools.text reads request
  let material := reviewMaterial tools reads request ranked
  let kept ← enforceBudget tools.estimateTokens material
  kept.1.validate
  pure
    { analysis := kept.1
      spaceRecommendations := kept.2
      confidence := aggregateConfidence material.1.assessments
      candidateStatus := reviewStatus kept.1 kept.2 request.hasBlockingUnknowns }

end SharedContext.Search
