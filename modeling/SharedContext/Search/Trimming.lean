import SharedContext.Library.FirstFit
import SharedContext.Search.CandidateReview

/-!
# What trimming leaves

Trimming stops at the first material that fits the budget.  It keeps the best
ranked assessments and never takes the Primary Space away, so the status of the
review depends on the budget through the number of assessments alone.
-/

namespace SharedContext.Search

variable {estimateTokens : ReviewMaterial → Nat}

def Fits (estimateTokens : ReviewMaterial → Nat) (material : ReviewMaterial) : Prop :=
  estimateTokens material ≤ material.1.tokenBudget

/-- One round of the loop: what does not fit is measured and trimmed. -/
def shrinkReview (estimateTokens : ReviewMaterial → Nat) (material : ReviewMaterial) :
    Option ReviewMaterial :=
  trim (measured estimateTokens material)

theorem enforceBudget_firstFit {material kept : ReviewMaterial}
    (enforced : enforceBudget estimateTokens material = .ok kept) :
    ∃ last, FirstFit (Fits estimateTokens) (shrinkReview estimateTokens) material last ∧
      kept = measured estimateTokens last := by
  induction material using enforceBudget.induct estimateTokens with
  | case1 material fits =>
      rw [enforceBudget, if_pos fits] at enforced
      exact ⟨material, .here fits, (Except.ok.inj enforced).symm⟩
  | case2 material tooLarge next trimmed ih =>
      rw [enforceBudget, if_neg tooLarge] at enforced
      split at enforced
      · next other trimmedOther =>
        cases trimmed.symm.trans trimmedOther
        obtain ⟨last, first, isKept⟩ := ih enforced
        exact ⟨last, .later tooLarge trimmed first, isKept⟩
      · cases enforced
  | case3 material tooLarge trimmed =>
      rw [enforceBudget, if_neg tooLarge] at enforced
      split at enforced
      · next other trimmedOther => cases trimmed.symm.trans trimmedOther
      · cases enforced

/-- What is left of a material: its best assessments and its Primary Space. -/
structure LeftOf (material left : ReviewMaterial) : Prop where
  assessments : left.1.assessments <+: material.1.assessments
  status : left.1.status = material.1.status
  primary : left.2.any CandidateSpaceRecommendation.isPrimary =
    material.2.any CandidateSpaceRecommendation.isPrimary

theorem any_eraseP {α : Type} {test erased : α → Bool} {items : List α}
    (apart : ∀ item, erased item = true → test item = false) :
    (items.eraseP erased).any test = items.any test := by
  induction items with
  | nil => rfl
  | cons item rest ih =>
      cases isErased : erased item with
      | true =>
          rw [List.eraseP_cons_of_pos isErased, List.any_cons, apart item isErased]
          rfl
      | false =>
          rw [List.eraseP_cons_of_neg (Bool.eq_false_iff.mp isErased), List.any_cons,
            List.any_cons, ih]

theorem leftOf_trim {material next : ReviewMaterial} (trimmed : trim material = some next) :
    LeftOf material next := by
  unfold trim at trimmed
  split_ifs at trimmed
  · cases trimmed
    refine ⟨List.prefix_refl _, rfl, ?_⟩
    change (eraseLast _ _).any _ = _
    rw [eraseLast, List.any_reverse, any_eraseP, List.any_reverse]
    rintro (⟨_, _ | _, _⟩ | _) isRelated
    all_goals first | rfl | cases isRelated
  · cases trimmed
    exact ⟨List.dropLast_prefix _, rfl, rfl⟩

theorem LeftOf.trans {first second third : ReviewMaterial} (left : LeftOf first second)
    (later : LeftOf second third) : LeftOf first third :=
  ⟨later.assessments.trans left.assessments, later.status.trans left.status,
    later.primary.trans left.primary⟩

theorem leftOf_shrinkReview {material next : ReviewMaterial}
    (step : shrinkReview estimateTokens material = some next) : LeftOf material next := by
  have left := leftOf_trim step
  exact ⟨left.assessments, left.status, left.primary⟩

theorem leftOf_shrinksTo {material last : ReviewMaterial}
    (onWay : ShrinksTo (shrinkReview estimateTokens) material last) : LeftOf material last := by
  induction onWay with
  | refl => exact ⟨List.prefix_refl _, rfl, rfl⟩
  | tail _ step ih => exact ih.trans (leftOf_shrinkReview step)

/-- Some material on the way that still has the first assessments fits the budget. -/
def LeavesRoom (estimateTokens : ReviewMaterial → Nat) (material : ReviewMaterial)
    (count : Nat) : Prop :=
  ∃ other, ShrinksTo (shrinkReview estimateTokens) material other ∧ Fits estimateTokens other ∧
    count ≤ other.1.assessments.length

theorem enforceBudget_keeps {material kept : ReviewMaterial}
    (enforced : enforceBudget estimateTokens material = .ok kept) :
    LeftOf material kept ∧
      ∀ count, count ≤ kept.1.assessments.length ↔ LeavesRoom estimateTokens material count := by
  obtain ⟨last, first, rfl⟩ := enforceBudget_firstFit enforced
  have left := leftOf_shrinksTo first.shrinksTo
  refine ⟨⟨left.assessments, left.status, left.primary⟩, fun count => ?_⟩
  have decreases : ∀ value next, shrinkReview estimateTokens value = some next →
      next.1.assessments.length ≤ value.1.assessments.length :=
    fun value next step => (leftOf_shrinkReview step).assessments.length_le
  exact first.le_level_iff decreases

theorem mem_kept_iff {material kept : ReviewMaterial}
    (enforced : enforceBudget estimateTokens material = .ok kept)
    {assessment : CandidateRelationAssessment} :
    assessment ∈ kept.1.assessments ↔
      ∃ rank, material.1.assessments[rank]? = some assessment ∧
        LeavesRoom estimateTokens material (rank + 1) := by
  obtain ⟨left, room⟩ := enforceBudget_keeps enforced
  obtain ⟨rest, isPrefix⟩ := left.assessments
  rw [List.mem_iff_getElem?]
  constructor
  · rintro ⟨rank, found⟩
    have inKept : rank < kept.1.assessments.length := (List.getElem?_eq_some_iff.mp found).1
    refine ⟨rank, ?_, (room _).mp inKept⟩
    rw [← isPrefix, List.getElem?_append_left inKept, found]
  · rintro ⟨rank, found, hasRoom⟩
    have inKept : rank < kept.1.assessments.length := (room _).mpr hasRoom
    refine ⟨rank, ?_⟩
    rw [← isPrefix, List.getElem?_append_left inKept] at found
    exact found

end SharedContext.Search
