import SharedContext.Search.Trimming

/-!
# Truncated reviews

A review is cut to its best targets and trimmed to its budget before its status
is read off.  A relation that a human has to decide is hidden from the status
exactly when the cut or the budget drops every target that shows it.
-/

namespace SharedContext.Mcp

open Search

/-! ### Automatic confirmation -/

/-- What the permission to confirm automatically reads of a Review. -/
structure CandidateReviewView where
  reviewStatus : CandidateReviewStatus
  candidateStatus : AutomaticCandidateStatus
  analysis : CandidateAnalysis

def candidateStatusName : AutomaticCandidateStatus → String
  | .draft => "draft"
  | .needsEvidence => "needs_evidence"
  | .needsSpaceReview => "needs_space_review"
  | .exactDuplicateReview => "exact_duplicate_review"
  | .potentialContradictionReview => "potential_contradiction_review"
  | .readyForReview => "ready_for_review"

def relationName : CandidateAssessmentRelation → String
  | .exactDuplicate => "exact_duplicate"
  | .supports => "supports"
  | .revises => "revises"
  | .potentialContradiction => "potential_contradiction"
  | .unresolvedRelated => "unresolved_related"
  | .novel => "novel"

def autoConfirmReplayViolation (review : CandidateReviewView) : Option String :=
  if review.reviewStatus = .pending then none
  else some "its Review is no longer pending; automatic confirmation cannot replay a decision"

/-- The step that a status other than ready is missing. -/
def missingStep : AutomaticCandidateStatus → Option String
  | .readyForReview => none
  | .needsSpaceReview =>
      some ("the analysis elected no existing Primary Space for it, so it needs one: create or " ++
        "pick the Space (space_create, or confirm a sibling Candidate into the proposed Space so " ++
        "the whole Task's group resolves onto it) and run candidate_analyze again")
  | .exactDuplicateReview =>
      some ("the analysis found an exact duplicate of a still-accepted Context, and which record " ++
        "survives is a human decision")
  | .potentialContradictionReview =>
      some ("the analysis found a potential contradiction, and which record is right is a human " ++
        "decision")
  | .draft | .needsEvidence =>
      some "its analysis is not finished, so there is nothing to confirm yet"

def autoConfirmStatusViolation (review : CandidateReviewView) : Option String :=
  (missingStep review.candidateStatus).map fun step =>
    (s!"its candidate_status is {candidateStatusName review.candidateStatus} rather than " ++
      s!"ready_for_review -- {step}")

/-- The relation of the most confident assessment, the last of several. -/
def topAssessmentRelation (review : CandidateReviewView) : Option CandidateAssessmentRelation :=
  (review.analysis.assessments.foldl
    (fun best assessment =>
      match best with
      | none => some assessment
      | some best =>
          if best.confidence.basisPoints ≤ assessment.confidence.basisPoints then
            some assessment
          else some best)
    none).map CandidateRelationAssessment.relation

def autoConfirmRelationViolation (review : CandidateReviewView) : Option String :=
  match topAssessmentRelation review with
  | some .novel | some .supports => none
  | some relation =>
      some (s!"its top assessment relation is {relationName relation}, and only novel or supports " ++
        "may be confirmed automatically")
  | none => some "its analysis produced no assessment, so no relation could be verified"

def autoConfirmable (review : CandidateReviewView) : Bool :=
  (autoConfirmReplayViolation review).isNone && (autoConfirmStatusViolation review).isNone &&
    (autoConfirmRelationViolation review).isNone

theorem ready_of_autoConfirmable {review : CandidateReviewView}
    (permitted : autoConfirmable review = true) :
    review.candidateStatus = .readyForReview := by
  unfold autoConfirmable at permitted
  have noViolation : (autoConfirmStatusViolation review).isNone = true := by
    rw [Bool.and_eq_true, Bool.and_eq_true] at permitted
    exact permitted.1.2
  cases isStatus : review.candidateStatus with
  | readyForReview => rfl
  | _ =>
      rw [autoConfirmStatusViolation, isStatus] at noViolation
      cases noViolation

def reviewOf (status : CandidateReviewStatus) (result : CandidateAnalysisResult) :
    CandidateReviewView where
  reviewStatus := status
  candidateStatus := result.candidateStatus
  analysis := result.analysis

/-! ### What a budget decides -/

section Budget

variable (tools : AnalysisTools) (reads : AnalysisReads) (request : CandidateAnalysisRequest)

def withBudget (budget : Nat) : CandidateAnalysisRequest :=
  { request with tokenBudget := budget }

def retrievedTargets : Targets :=
  ((rankedTargets tools.text reads request).toOption).getD []

def assessed (entry : ContextRevisionRef × TargetState) : CandidateRelationAssessment :=
  assessTarget tools.text request.candidate.content entry.1 entry.2

def Blocking (relation : CandidateAssessmentRelation) : Prop :=
  relation = .exactDuplicate ∨ relation = .potentialContradiction

/-- The review of the retrieved targets before its budget is enforced. -/
def untrimmed : ReviewMaterial :=
  reviewMaterial tools reads request (retrievedTargets tools reads request)

/-- Some target with the relation is among the best, and the budget leaves room
for it and those before it. -/
def RoomFor (relation : CandidateAssessmentRelation) : Prop :=
  ∃ rank entry, (retrievedTargets tools reads request)[rank]? = some entry ∧
    rank < request.topK ∧ (assessed tools request entry).relation = relation ∧
      LeavesRoom tools.estimateTokens (untrimmed tools reads request) (rank + 1)

/-- Only blocking relations keep the review from being ready. -/
def MayBeReady : Prop :=
  (untrimmed tools reads request).2.any CandidateSpaceRecommendation.isPrimary = true ∧
    request.hasBlockingUnknowns = false

def Succeeds : Prop :=
  ∃ result, analyzeCandidate tools reads request = .ok result

end Budget

section Status

variable {tools : AnalysisTools} {reads : AnalysisReads} {request : CandidateAnalysisRequest}

theorem analyzeCandidate_eq_ok {result : CandidateAnalysisResult}
    (analyzed : analyzeCandidate tools reads request = .ok result) :
    enforceBudget tools.estimateTokens (untrimmed tools reads request) =
        .ok (result.analysis, result.spaceRecommendations) ∧
      result.candidateStatus =
        reviewStatus result.analysis result.spaceRecommendations request.hasBlockingUnknowns := by
  simp only [analyzeCandidate, Result.bind_eq_ok, Result.exists_unit, Result.require_eq_ok,
    Result.pure_eq_ok] at analyzed
  obtain ⟨-, -, -, -, -, -, ranked, isRanked, kept, enforced, -, rfl⟩ := analyzed
  have sameTargets : retrievedTargets tools reads request = ranked := by
    rw [retrievedTargets, isRanked]
    rfl
  rw [untrimmed, sameTargets]
  exact ⟨enforced, rfl⟩

/-- The status as a function of what it depends on. -/
def statusOf (duplicate contradiction primary unknowns : Bool) : AutomaticCandidateStatus :=
  if duplicate then .exactDuplicateReview
  else if contradiction then .potentialContradictionReview
  else if !primary then .needsSpaceReview
  else if unknowns then .needsEvidence
  else .readyForReview

theorem statusOf_eq_ready {duplicate contradiction primary unknowns : Bool} :
    statusOf duplicate contradiction primary unknowns = .readyForReview ↔
      duplicate = false ∧ contradiction = false ∧ primary = true ∧ unknowns = false := by
  revert duplicate contradiction primary unknowns
  decide

theorem statusOf_eq_iff {duplicate contradiction duplicate' contradiction' primary unknowns : Bool} :
    statusOf duplicate contradiction primary unknowns =
        statusOf duplicate' contradiction' primary unknowns ↔
      (duplicate = true ↔ duplicate' = true) ∧
        (duplicate = true ∨ (contradiction = true ↔ contradiction' = true)) := by
  revert duplicate contradiction duplicate' contradiction' primary unknowns
  decide

theorem mem_topAssessments {ranked : Targets} {rank : Nat}
    {assessment : CandidateRelationAssessment} (notNovel : assessment.relation ≠ .novel) :
    (topAssessments tools.text request ranked)[rank]? = some assessment ↔
      ∃ entry, ranked[rank]? = some entry ∧ rank < request.topK ∧
        assessed tools request entry = assessment := by
  have inTop : ((ranked.take request.topK).map (assessed tools request))[rank]? =
      some assessment ↔ ∃ entry, ranked[rank]? = some entry ∧ rank < request.topK ∧
        assessed tools request entry = assessment := by
    simp only [List.getElem?_map, List.getElem?_take, Option.map_eq_some_iff,
      Option.ite_none_right_eq_some]
    constructor
    · rintro ⟨entry, ⟨inRank, found⟩, isAssessed⟩
      exact ⟨entry, found, inRank, isAssessed⟩
    · rintro ⟨entry, found, inRank, isAssessed⟩
      exact ⟨entry, ⟨inRank, found⟩, isAssessed⟩
  rw [← inTop]
  unfold topAssessments
  change (if (ranked.take request.topK).map (assessed tools request) = [] then _ else _)[rank]? =
    some assessment ↔ _
  split_ifs with isEmpty
  · rw [isEmpty]
    refine iff_of_false (fun found => ?_) (by simp)
    have isNovel := List.mem_of_getElem? found
    rw [List.mem_singleton] at isNovel
    exact notNovel (isNovel ▸ rfl)
  · rfl

/-- A relation is shown exactly when the cut and the budget leave room for it. -/
theorem shows_iff_roomFor {result : CandidateAnalysisResult}
    (analyzed : analyzeCandidate tools reads request = .ok result)
    {relation : CandidateAssessmentRelation} (notNovel : relation ≠ .novel) :
    (result.analysis.assessments.any fun assessment => assessment.relation = relation) = true ↔
      RoomFor tools reads request relation := by
  have kept (assessment : CandidateRelationAssessment) :
      assessment ∈ result.analysis.assessments ↔ _ :=
    mem_kept_iff (analyzeCandidate_eq_ok analyzed).1
  rw [List.any_eq_true]
  constructor
  · rintro ⟨assessment, member, isRelation⟩
    rw [decide_eq_true_eq] at isRelation
    obtain ⟨rank, found, hasRoom⟩ := (kept assessment).mp member
    obtain ⟨entry, isTarget, inRank, isAssessed⟩ :=
      (mem_topAssessments (by rw [isRelation]; exact notNovel)).mp found
    exact ⟨rank, entry, isTarget, inRank, by rw [isAssessed, isRelation], hasRoom⟩
  · rintro ⟨rank, entry, isTarget, inRank, isRelation, hasRoom⟩
    refine ⟨assessed tools request entry, (kept _).mpr ⟨rank, ?_, hasRoom⟩,
      decide_eq_true isRelation⟩
    exact (mem_topAssessments (by rw [isRelation]; exact notNovel)).mpr
      ⟨entry, isTarget, inRank, rfl⟩

theorem status_eq {result : CandidateAnalysisResult}
    (analyzed : analyzeCandidate tools reads request = .ok result) :
    result.candidateStatus = statusOf
      (result.analysis.assessments.any fun assessment => assessment.relation = .exactDuplicate)
      (result.analysis.assessments.any fun assessment =>
        assessment.relation = .potentialContradiction)
      ((untrimmed tools reads request).2.any CandidateSpaceRecommendation.isPrimary)
      request.hasBlockingUnknowns := by
  obtain ⟨enforced, isStatus⟩ := analyzeCandidate_eq_ok analyzed
  have left := (enforceBudget_keeps enforced).1
  have complete : result.analysis.status = .complete := left.status
  rw [isStatus, reviewStatus, ← left.primary, complete, statusOf]
  simp

end Status

/-! ### Hidden relations -/

section Hidden

variable (tools : AnalysisTools) (reads : AnalysisReads) (request : CandidateAnalysisRequest)

def BlockingTarget : Prop :=
  ∃ entry ∈ retrievedTargets tools reads request,
    Blocking (assessed tools request entry).relation

/-- No budget hides a blocking target: it is never ready for review, all budgets
lead to one status, and it is never confirmed automatically. -/
def NeverHides : Prop :=
  ∀ budget result, analyzeCandidate tools reads (withBudget request budget) = .ok result →
    (BlockingTarget tools reads request → result.candidateStatus ≠ .readyForReview) ∧
      (∀ other otherResult,
        analyzeCandidate tools reads (withBudget request other) = .ok otherResult →
          otherResult.candidateStatus = result.candidateStatus) ∧
      ∀ status, autoConfirmable (reviewOf status result) = true →
        ¬ BlockingTarget tools reads request

/-- Every budget leaves room for the same strongest blocking relation among the
best targets, and for one at all where the review would be ready without it. -/
def KeepsStrongest : Prop :=
  ∀ budget, Succeeds tools reads (withBudget request budget) →
    (MayBeReady tools reads request →
      RoomFor tools reads (withBudget request budget) .exactDuplicate ∨
        RoomFor tools reads (withBudget request budget) .potentialContradiction) ∧
    ∀ other, Succeeds tools reads (withBudget request other) →
      (RoomFor tools reads (withBudget request budget) .exactDuplicate ↔
        RoomFor tools reads (withBudget request other) .exactDuplicate) ∧
      (RoomFor tools reads (withBudget request budget) .exactDuplicate ∨
        (RoomFor tools reads (withBudget request budget) .potentialContradiction ↔
          RoomFor tools reads (withBudget request other) .potentialContradiction))

variable {tools reads request}

theorem blockingTarget_of_roomFor {budget : Nat} {relation : CandidateAssessmentRelation}
    (room : RoomFor tools reads (withBudget request budget) relation)
    (blocks : Blocking relation) : BlockingTarget tools reads request := by
  obtain ⟨rank, entry, isTarget, -, isRelation, -⟩ := room
  refine ⟨entry, List.mem_of_getElem? isTarget, ?_⟩
  change Blocking (assessed tools (withBudget request budget) entry).relation
  rw [isRelation]
  exact blocks

theorem ready_iff {budget : Nat} {result : CandidateAnalysisResult}
    (analyzed : analyzeCandidate tools reads (withBudget request budget) = .ok result) :
    result.candidateStatus = .readyForReview ↔
      MayBeReady tools reads request ∧
        ¬ RoomFor tools reads (withBudget request budget) .exactDuplicate ∧
        ¬ RoomFor tools reads (withBudget request budget) .potentialContradiction := by
  rw [status_eq analyzed, statusOf_eq_ready, ← shows_iff_roomFor analyzed (by decide),
    ← shows_iff_roomFor analyzed (by decide), Bool.not_eq_true, Bool.not_eq_true]
  constructor
  · rintro ⟨noDuplicate, noContradiction, mayBe⟩
    exact ⟨mayBe, noDuplicate, noContradiction⟩
  · rintro ⟨mayBe, noDuplicate, noContradiction⟩
    exact ⟨noDuplicate, noContradiction, mayBe⟩

theorem same_status_iff {budget other : Nat} {result otherResult : CandidateAnalysisResult}
    (analyzed : analyzeCandidate tools reads (withBudget request budget) = .ok result)
    (otherAnalyzed :
      analyzeCandidate tools reads (withBudget request other) = .ok otherResult) :
    otherResult.candidateStatus = result.candidateStatus ↔
      (RoomFor tools reads (withBudget request budget) .exactDuplicate ↔
        RoomFor tools reads (withBudget request other) .exactDuplicate) ∧
      (RoomFor tools reads (withBudget request budget) .exactDuplicate ∨
        (RoomFor tools reads (withBudget request budget) .potentialContradiction ↔
          RoomFor tools reads (withBudget request other) .potentialContradiction)) := by
  have samePrimary : (untrimmed tools reads (withBudget request other)).2 =
      (untrimmed tools reads (withBudget request budget)).2 := rfl
  have sameUnknowns : (withBudget request other).hasBlockingUnknowns =
      (withBudget request budget).hasBlockingUnknowns := rfl
  rw [eq_comm, status_eq analyzed, status_eq otherAnalyzed, samePrimary, sameUnknowns,
    statusOf_eq_iff, ← shows_iff_roomFor analyzed (by decide),
    ← shows_iff_roomFor analyzed (by decide), ← shows_iff_roomFor otherAnalyzed (by decide),
    ← shows_iff_roomFor otherAnalyzed (by decide)]

end Hidden

/-! ### A hidden duplicate -/

def sampleEvidence : EvidenceSnapshot where
  evidenceId := ⟨1⟩
  kind := .experimentRecord
  supports := "the limit was reached by two clients at once"
  content := .object [("clients", .number "2")]
  interpretation := "one limit is shared"
  limitations := []

def sampleRevision (revisionId : RevisionId) (statement rationale : String) : ContextRevision where
  revisionId := revisionId
  parentRevisionIds := []
  kind := .decision
  topicKey := none
  problemView := none
  statement := statement
  rationale := rationale
  applicability := ⟨["network"], [], []⟩
  assumptions := []
  recheckWhen := []
  hints := []
  relations := []
  evidence := [sampleEvidence]

def samplePublication (publicationId : PublicationId) (revisionId : RevisionId) : Publication where
  publicationId := publicationId
  previousPublicationIds := []
  action := .publish
  revisionId := revisionId
  reviewEventIds := [⟨1⟩]

def sampleContext (contextId : ContextId) (publicationId : PublicationId)
    (revision : ContextRevision) : ContextProjection where
  contextId := contextId
  revisions := .ofKeys {revision.revisionId} fun _ =>
    some
      { revision := revision
        isHead := true
        reviewSummary := .approved
        reviewEventIds := {⟨1⟩}
        lifecycle := .accepted }
  revisionHeads := {revision.revisionId}
  reviews := .empty
  publications := .ofKeys {publicationId} fun _ =>
    some (samplePublication publicationId revision.revisionId)
  publicationHeads := {publicationId}
  governance := .accepted publicationId revision.revisionId
  autoInjection := ⟨true, ∅⟩

/-- The first Context states what the Candidate states, the second restates it. -/
def sampleSpace : ContextSpaceProjection where
  spaceId := ⟨1⟩
  intent := ⟨.empty, {⟨1⟩}⟩
  contexts := .ofKeys {⟨1⟩, ⟨2⟩} fun contextId =>
    if contextId = ⟨1⟩ then
      some (sampleContext ⟨1⟩ ⟨1⟩
        (sampleRevision ⟨1⟩ "clients share one retry budget" "seen in the client code"))
    else
      some (sampleContext ⟨2⟩ ⟨2⟩
        (sampleRevision ⟨2⟩ "all clients share one retry budget pool" "seen in the pool"))

def sampleProjection : DomainProjection where
  candidates := .empty
  candidateSubmissions := .empty
  candidateSubmissionConflicts := .empty
  candidateConfirmations := .empty
  candidateConfirmationConflicts := .empty
  contextSpaceAssociations := .empty
  contextSpaceAssociationHeads := .empty
  contextSpaceAssociationConflicts := .empty
  spaces := .ofKeys {⟨1⟩} fun _ => some sampleSpace
  engineeringReferences := .empty
  semanticConflictCandidates := ∅
  semanticConflicts := .empty
  quarantinedEventIds := ∅
  diagnostics := ∅

def sampleReads : AnalysisReads where
  snapshot := ⟨"4b825dc642cb6eb9a060e54bf8d69288fbee4904", 1, sampleProjection⟩
  graph := none
  bm25 := ⟨"4b825dc642cb6eb9a060e54bf8d69288fbee4904", 1, []⟩
  sourceSpaces := ⟨"4b825dc642cb6eb9a060e54bf8d69288fbee4904", 1, []⟩
  candidateSpaces := ⟨"4b825dc642cb6eb9a060e54bf8d69288fbee4904", 1, []⟩
  retirements := ⟨"4b825dc642cb6eb9a060e54bf8d69288fbee4904", 1, .empty⟩
  historicalReason := fun _ _ => none

/-- The texts of the sample are lower-case words, which are their own tokens; its
review is 1380 bytes long. -/
def sampleTools : AnalysisTools where
  text :=
    { normalizeSearchText := id
      normalizedIdentifiers := fun _ => ∅
      toLowercase := id
      isAlphanumeric := Char.isAlphanum }
  intentText :=
    { strToLowercase := id
      charToLowercase := fun character => [character]
      isAlphanumeric := Char.isAlphanum
      canonicalToVec := fun _ => []
      sha256Hex := fun _ => "" }
  groupKeyFromTask := fun task => ⟨task.uuid⟩
  estimateTokens := fun _ => 345

def sampleIntent : WorkingIntentSnapshot where
  goal := "bound the retries"
  currentDirection := none
  inScope := []
  outOfScope := []
  domains := ["network"]
  platforms := []
  constraints := []
  acceptanceConditions := []
  artifactHints := []
  interfaceHints := []
  openQuestions := []

def sampleRequest : CandidateAnalysisRequest where
  candidate :=
    { candidateId := ⟨1⟩
      submissionId := ⟨1⟩
      sourceEpisode := ⟨⟨1⟩, ⟨1⟩, ⟨1⟩⟩
      content := contextRevisionAsDraft
        (sampleRevision ⟨3⟩ "clients share one retry budget" "measured under load") }
  sourceTaskId := ⟨1⟩
  sourceWorkingIntent := sampleIntent
  sourceTaskSignals := []
  hasBlockingUnknowns := false
  explicitRelatedContexts := []
  artifactRefs := []
  proposedSpaceGroupSpaceId := none
  tokenBudget := 4096
  topK := 1

end SharedContext.Mcp
