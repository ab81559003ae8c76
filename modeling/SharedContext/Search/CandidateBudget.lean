import SharedContext.Library.Utf8
import SharedContext.Search.Trimming

/-!
# The budget of an analysis

The estimate is made of the JSON text of the analysis and its recommendations,
and then written into that text.  What the loop keeps is still within its budget
after that, unless it stops at once and the number written has more digits than
the one it replaces.
-/

namespace SharedContext.Search

/-! ### The JSON text -/

/-- The JSON texts of the parts of an analysis. -/
structure AnalysisText where
  string : String → String
  assessment : CandidateRelationAssessment → String
  recommendation : CandidateSpaceRecommendation → String

def jsonArray (items : List String) : String :=
  "[" ++ ",".intercalate items ++ "]"

def jsonOption {α : Type} (text : α → String) : Option α → String
  | none => "null"
  | some value => text value

def analysisStatusName : CandidateAnalysisStatus → String
  | .pending => "pending"
  | .complete => "complete"
  | .failed => "failed"

section Estimate

variable (text : AnalysisText)

def analysisJsonBefore (analysis : CandidateAnalysis) : String :=
  "\x7b\"status\":\"" ++ analysisStatusName analysis.status ++
    "\",\"assessments\":" ++ jsonArray (analysis.assessments.map text.assessment) ++
    ",\"context_tree_oid\":" ++ jsonOption text.string analysis.contextTreeOid ++
    ",\"context_generation\":" ++ jsonOption toString analysis.contextGeneration ++
    ",\"graph_context_tree_oid\":" ++ jsonOption text.string analysis.graphContextTreeOid ++
    ",\"artifact_generation\":" ++ jsonOption text.string analysis.artifactGeneration ++
    ",\"token_budget\":" ++ toString analysis.tokenBudget ++ ",\"estimated_tokens\":"

def analysisJsonAfter (analysis : CandidateAnalysis) : String :=
  ",\"omitted_target_count\":" ++ toString analysis.omittedTargetCount ++
    ",\"error_code\":" ++ jsonOption text.string analysis.errorCode ++ "\x7d"

def analysisJson (analysis : CandidateAnalysis) : String :=
  analysisJsonBefore text analysis ++ toString analysis.estimatedTokens ++
    analysisJsonAfter text analysis

/-- The bytes of the analysis and its recommendations. -/
def jsonBytes (material : ReviewMaterial) : Nat :=
  ("[" ++ analysisJson text material.1 ++ "," ++
    jsonArray (material.2.map text.recommendation) ++ "]").utf8ByteSize

def estimateTokens (material : ReviewMaterial) : Nat :=
  max ((jsonBytes text material + 3) / 4) 1

end Estimate

def digitCount (number : Nat) : Nat :=
  (toString number).utf8ByteSize

variable {text : AnalysisText}

theorem digitCount_eq (number : Nat) : digitCount number = (Nat.toDigits 10 number).length := by
  rw [digitCount, Nat.toString_eq_ofList_toDigits]
  refine Utf8.utf8ByteSize_ofList ?_
  intro character member
  have isDigit := Nat.isDigit_of_mem_toDigits (by decide) (by decide) member
  rw [Char.isDigit_iff_toNat] at isDigit
  have ascii : character.val ≤ 0x7F := UInt32.le_iff_toNat_le.mpr (isDigit.2.trans (by decide))
  exact if_pos ascii

theorem digitCount_pos (number : Nat) : 0 < digitCount number := by
  rw [digitCount_eq]
  exact Nat.length_toDigits_pos

theorem digitCount_le {small large : Nat} (le : small ≤ large) :
    digitCount small ≤ digitCount large := by
  have positive := digitCount_pos large
  rw [digitCount_eq] at positive ⊢
  rw [digitCount_eq]
  rw [Nat.length_toDigits_le_iff (by decide) positive]
  have := (Nat.length_toDigits_le_iff (n := large) (by decide) positive).mp le_rfl
  omega

theorem jsonBytes_measured (material : ReviewMaterial) (estimated : Nat) :
    jsonBytes text ({ material.1 with estimatedTokens := estimated }, material.2) +
        digitCount material.1.estimatedTokens =
      jsonBytes text material + digitCount estimated := by
  have sameBefore : analysisJsonBefore text { material.1 with estimatedTokens := estimated } =
      analysisJsonBefore text material.1 := rfl
  have sameAfter : analysisJsonAfter text { material.1 with estimatedTokens := estimated } =
      analysisJsonAfter text material.1 := rfl
  simp only [jsonBytes, analysisJson, digitCount, String.utf8ByteSize_append, sameBefore,
    sameAfter]
  generalize String.utf8ByteSize = size
  ac_rfl

theorem jsonBytes_pos (text : AnalysisText) (material : ReviewMaterial) :
    0 < jsonBytes text material := by
  have opened : "[".utf8ByteSize = 1 := by decide
  simp only [jsonBytes, String.utf8ByteSize_append, opened]
  omega

theorem estimateTokens_eq (text : AnalysisText) (material : ReviewMaterial) :
    estimateTokens text material = (jsonBytes text material + 3) / 4 := by
  have positive := jsonBytes_pos text material
  rw [estimateTokens]
  omega

theorem estimateTokens_le_iff {material : ReviewMaterial} {budget : Nat} :
    estimateTokens text material ≤ budget ↔ jsonBytes text material ≤ 4 * budget := by
  rw [estimateTokens_eq]
  omega

theorem jsonBytes_recorded (material : ReviewMaterial) :
    jsonBytes text (measured (estimateTokens text) material) +
        digitCount material.1.estimatedTokens =
      jsonBytes text material + digitCount (estimateTokens text material) :=
  jsonBytes_measured material _

/-! ### What the loop keeps -/

/-- The material fits, but with the digits of its own estimate it does not. -/
def GrowsOverBudget (text : AnalysisText) (material : ReviewMaterial) : Prop :=
  jsonBytes text material ≤ 4 * material.1.tokenBudget ∧
    4 * material.1.tokenBudget + digitCount material.1.estimatedTokens <
      jsonBytes text material + digitCount ((jsonBytes text material + 3) / 4)

def targetCount (analysis : CandidateAnalysis) : Nat :=
  analysis.assessments.countP fun assessment => assessment.target.isSome

/-- An analysis of ranked targets: the only assessment without a target is one
that stands alone, and every target is assessed or counted as omitted. -/
structure RanksTargets (retrieved : Nat) (analysis : CandidateAnalysis) : Prop where
  assessed : analysis.assessments ≠ []
  targets : 1 < analysis.assessments.length →
    ∀ assessment ∈ analysis.assessments, assessment.target.isSome = true
  counted : targetCount analysis + analysis.omittedTargetCount = retrieved

/-- What a budget leaves of a material. -/
structure KeptWithin (text : AnalysisText) (retrieved : Nat) (material kept : ReviewMaterial) :
    Prop where
  within : estimateTokens text kept ≤ material.1.tokenBudget
  ranks : RanksTargets retrieved kept.1
  best : kept.1.assessments <+: material.1.assessments
  spaces : kept.2.Sublist material.2
  onlyRelated : kept.2.filter (fun recommendation => !recommendation.isRelated) =
    material.2.filter (fun recommendation => !recommendation.isRelated)

/-- What one round of the loop keeps. -/
structure Trimmed (retrieved : Nat) (material left : ReviewMaterial) : Prop where
  budget : left.1.tokenBudget = material.1.tokenBudget
  ranks : RanksTargets retrieved left.1
  best : left.1.assessments <+: material.1.assessments
  spaces : left.2.Sublist material.2
  onlyRelated : left.2.filter (fun recommendation => !recommendation.isRelated) =
    material.2.filter (fun recommendation => !recommendation.isRelated)

theorem Trimmed.refl {retrieved : Nat} {material : ReviewMaterial}
    (ranks : RanksTargets retrieved material.1) : Trimmed retrieved material material :=
  ⟨rfl, ranks, List.prefix_refl _, List.Sublist.refl _, rfl⟩

theorem Trimmed.trans {retrieved : Nat} {first second third : ReviewMaterial}
    (trimmed : Trimmed retrieved first second) (later : Trimmed retrieved second third) :
    Trimmed retrieved first third :=
  ⟨later.budget.trans trimmed.budget, later.ranks, later.best.trans trimmed.best,
    later.spaces.trans trimmed.spaces, later.onlyRelated.trans trimmed.onlyRelated⟩

theorem filter_eraseP {α : Type} {test : α → Bool} (items : List α) :
    (items.eraseP test).filter (fun item => !test item) = items.filter fun item => !test item := by
  induction items with
  | nil => rfl
  | cons item rest ih =>
      by_cases passes : test item = true
      · simp [passes]
      · simp [passes, ih]

theorem filter_eraseLast {α : Type} {test : α → Bool} (items : List α) :
    (eraseLast test items).filter (fun item => !test item) =
      items.filter fun item => !test item := by
  rw [eraseLast, List.filter_reverse, filter_eraseP, ← List.filter_reverse, List.reverse_reverse]

theorem eraseLast_sublist {α : Type} (test : α → Bool) (items : List α) :
    (eraseLast test items).Sublist items := by
  have erased := (List.eraseP_sublist (p := test) (l := items.reverse)).reverse
  rwa [List.reverse_reverse] at erased

/-- The last of several ranked targets is counted as omitted. -/
theorem RanksTargets.dropLast {retrieved : Nat} {analysis : CandidateAnalysis}
    (ranks : RanksTargets retrieved analysis) (several : 1 < analysis.assessments.length) :
    RanksTargets retrieved { analysis with
      assessments := analysis.assessments.dropLast
      omittedTargetCount := analysis.omittedTargetCount + 1 } := by
  have allTargets := ranks.targets several
  have leftTargets : ∀ assessment ∈ analysis.assessments.dropLast,
      assessment.target.isSome = true :=
    fun assessment member => allTargets assessment (List.mem_of_mem_dropLast member)
  have counted := ranks.counted
  refine ⟨?_, fun _ => leftTargets, ?_⟩
  · rw [← List.length_pos_iff, List.length_dropLast]
    omega
  · rw [targetCount, List.countP_eq_length.mpr allTargets] at counted
    change analysis.assessments.dropLast.countP _ + (analysis.omittedTargetCount + 1) = _
    rw [List.countP_eq_length.mpr leftTargets, List.length_dropLast]
    omega

theorem trim_trimmed {retrieved : Nat} {material next : ReviewMaterial}
    (ranks : RanksTargets retrieved material.1) (trimmed : trim material = some next) :
    Trimmed retrieved material next := by
  unfold trim at trimmed
  split_ifs at trimmed with related several
  · cases trimmed
    exact ⟨rfl, ranks, List.prefix_refl _, eraseLast_sublist _ _, filter_eraseLast _⟩
  · cases trimmed
    exact ⟨rfl, ranks.dropLast several, List.dropLast_prefix _, List.Sublist.refl _, rfl⟩

theorem RanksTargets.measured {retrieved : Nat} {material : ReviewMaterial}
    (ranks : RanksTargets retrieved material.1) (estimate : ReviewMaterial → Nat) :
    RanksTargets retrieved (measured estimate material).1 :=
  ⟨ranks.assessed, ranks.targets, ranks.counted⟩

theorem trim_overBudget {material next : ReviewMaterial}
    (exceeds : material.1.tokenBudget < material.1.estimatedTokens)
    (trimmed : trim material = some next) : next.1.tokenBudget < next.1.estimatedTokens := by
  unfold trim at trimmed
  split_ifs at trimmed
  · cases trimmed
    exact exceeds
  · cases trimmed
    exact exceeds

theorem firstFit_trimmed {retrieved : Nat} {material last : ReviewMaterial}
    (ranks : RanksTargets retrieved material.1)
    (first : FirstFit (Fits (estimateTokens text)) (shrinkReview (estimateTokens text))
      material last) :
    Trimmed retrieved material last ∧
      (last = material ∨ last.1.tokenBudget < last.1.estimatedTokens) := by
  induction first with
  | here => exact ⟨.refl ranks, Or.inl rfl⟩
  | @later value next last tooLarge step _ ih =>
      have round := trim_trimmed (ranks.measured _) step
      have estimatedOver : (measured (estimateTokens text) value).1.tokenBudget <
          (measured (estimateTokens text) value).1.estimatedTokens := Nat.lt_of_not_le tooLarge
      have exceeds := trim_overBudget estimatedOver step
      obtain ⟨rest, stale⟩ := ih round.ranks
      have firstRound : Trimmed retrieved value next :=
        ⟨round.budget, round.ranks, round.best, round.spaces, round.onlyRelated⟩
      refine ⟨firstRound.trans rest, Or.inr ?_⟩
      rcases stale with same | stale
      · rw [same]
        exact exceeds
      · exact stale

theorem within_of_overBudget {material : ReviewMaterial}
    (fits : Fits (estimateTokens text) material)
    (exceeds : material.1.tokenBudget < material.1.estimatedTokens) :
    estimateTokens text (measured (estimateTokens text) material) ≤ material.1.tokenBudget := by
  have recorded := @jsonBytes_recorded text material
  have digits : digitCount (estimateTokens text material) ≤
      digitCount material.1.estimatedTokens := digitCount_le (Nat.le_trans fits exceeds.le)
  have bytes := estimateTokens_le_iff.mp fits
  rw [estimateTokens_le_iff]
  omega

theorem within_iff_not_grows {material : ReviewMaterial}
    (fits : Fits (estimateTokens text) material) :
    estimateTokens text (measured (estimateTokens text) material) ≤ material.1.tokenBudget ↔
      ¬ GrowsOverBudget text material := by
  have recorded := @jsonBytes_recorded text material
  have bytes := estimateTokens_le_iff.mp fits
  rw [estimateTokens_le_iff, GrowsOverBudget, ← estimateTokens_eq]
  omega

theorem keptWithin_iff {retrieved : Nat} {material : ReviewMaterial}
    (ranks : RanksTargets retrieved material.1) :
    (∀ kept, enforceBudget (estimateTokens text) material = .ok kept →
        KeptWithin text retrieved material kept) ↔ ¬ GrowsOverBudget text material := by
  constructor
  · intro always grows
    have fits : Fits (estimateTokens text) material := estimateTokens_le_iff.mpr grows.1
    have stopsAtOnce : enforceBudget (estimateTokens text) material =
        .ok (measured (estimateTokens text) material) := by
      unfold Fits at fits
      rw [enforceBudget, if_pos fits]
    exact (within_iff_not_grows fits).mp (always _ stopsAtOnce).within grows
  · intro bounded kept enforced
    obtain ⟨last, first, rfl⟩ := enforceBudget_firstFit enforced
    obtain ⟨trimmed, stale⟩ := firstFit_trimmed ranks first
    refine ⟨?_, trimmed.ranks.measured _, trimmed.best, trimmed.spaces, trimmed.onlyRelated⟩
    rcases stale with same | exceeds
    · rw [same] at first ⊢
      exact (within_iff_not_grows first.fitting).mpr bounded
    · rw [← trimmed.budget]
      exact within_of_overBudget first.fitting exceeds

/-! ### The analysis of a Candidate -/

theorem reviewMaterial_ranks {tools : AnalysisTools} {reads : AnalysisReads}
    {request : CandidateAnalysisRequest} (valid : validateRequest request = .ok ())
    (ranked : Targets) :
    RanksTargets ranked.length (reviewMaterial tools reads request ranked).1 := by
  have positive : 0 < request.topK := by
    simp only [validateRequest, Result.seq_eq_ok, Result.require_eq_ok] at valid
    exact Nat.pos_of_ne_zero valid.2.1
  have topEq : (reviewMaterial tools reads request ranked).1.assessments =
      topAssessments tools.text request ranked := rfl
  have omittedEq : (reviewMaterial tools reads request ranked).1.omittedTargetCount =
      ranked.length - (topAssessments tools.text request ranked).length := rfl
  by_cases noTargets : ranked = []
  · have onlyNovel : topAssessments tools.text request ranked = [novelAssessment] := by
      simp [topAssessments, noTargets]
    rw [onlyNovel] at topEq omittedEq
    refine ⟨by simp [topEq], fun several => by simp [topEq] at several, ?_⟩
    rw [targetCount, topEq, omittedEq, noTargets]
    rfl
  · have taken : topAssessments tools.text request ranked = (ranked.take request.topK).map
        fun entry => assessTarget tools.text request.candidate.content entry.1 entry.2 := by
      rw [topAssessments]
      refine if_neg ?_
      simp only [List.map_eq_nil_iff, List.take_eq_nil_iff, not_or]
      exact ⟨positive.ne', noTargets⟩
    have allTargets : ∀ assessment ∈ topAssessments tools.text request ranked,
        assessment.target.isSome = true := by
      rw [taken]
      intro assessment member
      obtain ⟨target, _, rfl⟩ := List.mem_map.mp member
      rfl
    have lengthEq : (topAssessments tools.text request ranked).length =
        min request.topK ranked.length := by
      rw [taken, List.length_map, List.length_take]
    have someRanked := List.length_pos_iff.mpr noTargets
    refine ⟨?_, fun _ => by rw [topEq]; exact allTargets, ?_⟩
    · rw [topEq, ← List.length_pos_iff, lengthEq]
      omega
    · rw [targetCount, topEq, omittedEq, List.countP_eq_length.mpr allTargets, lengthEq]
      omega

/-- What enforcing the budget of an analysis keeps is within the budget as
recorded, and otherwise as ranked, exactly when the analysis as passed does not
fit with only the digits of its old estimate.  The analysis of every Candidate
ranks its targets. -/
theorem candidate_budget_kept_iff (text : AnalysisText) :
    (∀ (retrieved : Nat) (material : ReviewMaterial), RanksTargets retrieved material.1 →
      ((∀ kept, enforceBudget (estimateTokens text) material = .ok kept →
        KeptWithin text retrieved material kept) ↔ ¬ GrowsOverBudget text material)) ∧
    (∀ (tools : AnalysisTools) (reads : AnalysisReads) (request : CandidateAnalysisRequest)
      (ranked : Targets), validateRequest request = .ok () →
      RanksTargets ranked.length (reviewMaterial tools reads request ranked).1) :=
  ⟨fun _ _ ranks => keptWithin_iff ranks,
    fun _ _ _ ranked valid => reviewMaterial_ranks valid ranked⟩

/-! ### An estimate that grows -/

def quoted (value : String) : String :=
  "\"" ++ value ++ "\""

def jsonConfidence (confidence : CandidateConfidence) : String :=
  "\x7b\"basis_points\":" ++ toString confidence.basisPoints ++ ",\"rationale\":" ++
    quoted confidence.rationale ++ "\x7d"

def jsonIntent (intent : IntentSnapshot) : String :=
  "\x7b\"title\":" ++ quoted intent.title ++ ",\"problem\":" ++ quoted intent.problem ++
    ",\"desired_outcome\":" ++ quoted intent.desiredOutcome ++
    ",\"in_scope\":" ++ jsonArray (intent.inScope.map quoted) ++
    ",\"out_of_scope\":" ++ jsonArray (intent.outOfScope.map quoted) ++
    ",\"acceptance_conditions\":" ++ jsonArray (intent.acceptanceConditions.map quoted) ++
    ",\"domain_terms\":" ++ jsonArray (intent.domainTerms.map quoted) ++ "\x7d"

def jsonProposedSpace (groupKey : ProposedSpaceGroupKey) (intent : IntentSnapshot)
    (rationale : String) (confidence : CandidateConfidence) : String :=
  "\x7b\"kind\":\"proposed_new_space_intent\",\"recommendation_id\":" ++
    quoted "rec_00000000-0000-4000-8000-000000000000" ++
    ",\"proposed_space_group_key\":" ++ quoted (toString groupKey) ++
    ",\"proposed_new_space_intent\":" ++ jsonIntent intent ++
    ",\"rationale\":" ++ quoted rationale ++
    ",\"confidence\":" ++ jsonConfidence confidence ++
    ",\"paths\":[\x7b\"kind\":\"proposed_from_task_intent_revision\"," ++
    "\"proposed_space_group_key\":" ++ quoted (toString groupKey) ++ "\x7d]\x7d"

/-- The texts of a Candidate without targets, for which a Space is proposed. -/
def plainAnalysisText : AnalysisText where
  string := quoted
  assessment assessment :=
    "\x7b\"relation\":\"novel\",\"target\":null,\"confidence\":" ++
      jsonConfidence assessment.confidence ++
      ",\"paths\":[\x7b\"kind\":\"no_sufficient_candidate\"\x7d],\"reasons\":" ++
      jsonArray (assessment.reasons.map quoted) ++ "\x7d"
  recommendation
    | .proposedNewSpaceIntent (some groupKey) intent rationale confidence _ =>
        jsonProposedSpace groupKey intent rationale confidence
    | _ => ""

def proposedGroup : ProposedSpaceGroupKey :=
  ⟨.ofNat _ 0x40008000000000000001⟩

def proposedIntentOf (problem : String) : IntentSnapshot where
  title := "Task intent"
  problem := problem
  desiredOutcome := "d"
  inScope := ["d"]
  outOfScope := []
  acceptanceConditions := ["d"]
  domainTerms := []

/-- The analysis of a Candidate without targets, from a Task with a given problem. -/
def proposedMaterial (problem : String) : ReviewMaterial :=
  ({ status := .complete
     assessments := [novelAssessment]
     contextTreeOid := some "4b825dc642cb6eb9a060e54bf8d69288fbee4904"
     contextGeneration := some 7
     graphContextTreeOid := none
     artifactGeneration := none
     tokenBudget := 1024
     estimatedTokens := 0
     omittedTargetCount := 0
     errorCode := none },
    [.proposedNewSpaceIntent (some proposedGroup) (proposedIntentOf problem)
      "No safe existing Space exceeded the Primary threshold"
      ⟨6000, "No safe fused existing-Space candidate reached the Primary threshold"⟩
      [.proposedFromTaskIntentRevision proposedGroup]])

theorem jsonIntent_bytes (intent : IntentSnapshot) :
    (jsonIntent intent).utf8ByteSize =
      (jsonIntent { intent with problem := "" }).utf8ByteSize + intent.problem.utf8ByteSize := by
  delta jsonIntent quoted
  simp only [String.utf8ByteSize_append, String.utf8ByteSize_empty, Nat.add_zero]
  generalize String.utf8ByteSize = size
  ac_rfl

theorem jsonBytes_problem (analysis : CandidateAnalysis) (groupKey : ProposedSpaceGroupKey)
    (intent : IntentSnapshot) (rationale : String) (confidence : CandidateConfidence)
    (paths : List CandidateSpaceRecommendationPath) :
    jsonBytes plainAnalysisText
        (analysis, [.proposedNewSpaceIntent (some groupKey) intent rationale confidence paths]) =
      jsonBytes plainAnalysisText (analysis,
        [.proposedNewSpaceIntent (some groupKey) { intent with problem := "" } rationale
          confidence paths]) + intent.problem.utf8ByteSize := by
  have oneText (intent : IntentSnapshot) :
      jsonArray ([CandidateSpaceRecommendation.proposedNewSpaceIntent (some groupKey) intent
        rationale confidence paths].map plainAnalysisText.recommendation) =
          "[" ++ jsonProposedSpace groupKey intent rationale confidence ++ "]" := rfl
  delta jsonBytes
  simp only [oneText]
  delta jsonProposedSpace
  simp only [String.utf8ByteSize_append, jsonIntent_bytes intent]
  generalize String.utf8ByteSize = size
  ac_rfl

theorem jsonBytes_proposed (problem : String) :
    jsonBytes plainAnalysisText (proposedMaterial problem) = 1194 + problem.utf8ByteSize := by
  have withoutProblem : jsonBytes plainAnalysisText (proposedMaterial "") = 1194 := by
    decide +kernel
  have added := jsonBytes_problem (proposedMaterial problem).1 proposedGroup
    (proposedIntentOf problem) "No safe existing Space exceeded the Primary threshold"
    ⟨6000, "No safe fused existing-Space candidate reached the Primary threshold"⟩
    [.proposedFromTaskIntentRevision proposedGroup]
  rw [← withoutProblem]
  exact added

theorem utf8ByteSize_replicate (count : Nat) :
    (String.ofList (List.replicate count 'a')).utf8ByteSize = count := by
  rw [Utf8.utf8ByteSize_ofList, List.length_replicate]
  intro character member
  rw [List.eq_of_mem_replicate member]
  decide

/-- Exactly four times its budget of bytes. -/
def brimfulMaterial : ReviewMaterial :=
  proposedMaterial (String.ofList (List.replicate 2902 'a'))

theorem ranks_proposed (problem : String) : RanksTargets 0 (proposedMaterial problem).1 :=
  ⟨List.cons_ne_nil _ _, fun several => absurd several (Nat.lt_irrefl 1), rfl⟩

/-- The estimate of 1024 tokens adds three bytes to the text it was made of. -/
theorem recorded_estimate_over_budget :
    ¬ ∀ kept, enforceBudget (estimateTokens plainAnalysisText) brimfulMaterial = .ok kept →
      KeptWithin plainAnalysisText 0 brimfulMaterial kept := by
  have bytes : jsonBytes plainAnalysisText brimfulMaterial = 4096 := by
    rw [brimfulMaterial, jsonBytes_proposed, utf8ByteSize_replicate]
  have grows : GrowsOverBudget plainAnalysisText brimfulMaterial := by
    rw [GrowsOverBudget, bytes]
    exact ⟨by decide, by decide⟩
  exact fun always => (keptWithin_iff (ranks_proposed _)).mp always grows

/-- The analysis for a Task without a problem fits with room to spare. -/
theorem candidate_budget_kept_roomy :
    enforceBudget (estimateTokens plainAnalysisText) (proposedMaterial "") =
        .ok (measured (estimateTokens plainAnalysisText) (proposedMaterial "")) ∧
      ∀ kept, enforceBudget (estimateTokens plainAnalysisText) (proposedMaterial "") = .ok kept →
        KeptWithin plainAnalysisText 0 (proposedMaterial "") kept := by
  have bytes : jsonBytes plainAnalysisText (proposedMaterial "") = 1194 := jsonBytes_proposed ""
  have fits : estimateTokens plainAnalysisText (proposedMaterial "") ≤ 1024 := by
    rw [estimateTokens_le_iff, bytes]
    decide
  have stays : ¬ GrowsOverBudget plainAnalysisText (proposedMaterial "") := by
    rw [GrowsOverBudget, bytes]
    exact fun grows => absurd grows.2 (by decide)
  refine ⟨?_, ((candidate_budget_kept_iff plainAnalysisText).1 0 (proposedMaterial "")
    (ranks_proposed "")).mpr stays⟩
  rw [enforceBudget]
  exact if_pos fits

end SharedContext.Search
