import Mathlib

/-!
# Saturation of a finite set

`saturate` is the loop "collect everything that is admitted by what was taken
so far; stop when nothing is new".  The admission test may depend on the set
already taken, and it returns a label that is recorded for every element at
the round in which the element is taken.  When admission is monotone the
result is the least closed set above the start.
-/

namespace SharedContext

namespace Saturation

variable {α δ : Type*} [DecidableEq α]

/-- The elements one round adds: not yet taken, and admitted by the taken set. -/
def newly (candidates : Finset α) (label : Finset α → α → Option δ) (taken : Finset α) :
    Finset α :=
  candidates.filter fun item => item ∉ taken ∧ (label taken item).isSome

theorem mem_newly {candidates taken : Finset α} {label : Finset α → α → Option δ} {item : α} :
    item ∈ newly candidates label taken ↔
      item ∈ candidates ∧ item ∉ taken ∧ (label taken item).isSome := by
  rw [newly, Finset.mem_filter]

private theorem card_sdiff_newly_lt {candidates taken : Finset α}
    {label : Finset α → α → Option δ} (progress : newly candidates label taken ≠ ∅) :
    (candidates \ (taken ∪ newly candidates label taken)).card <
      (candidates \ taken).card := by
  obtain ⟨item, isNew⟩ := Finset.nonempty_iff_ne_empty.mpr progress
  obtain ⟨member, fresh, -⟩ := mem_newly.mp isNew
  apply Finset.card_lt_card
  rw [Finset.ssubset_iff_of_subset (Finset.sdiff_subset_sdiff subset_rfl Finset.subset_union_left)]
  refine ⟨item, Finset.mem_sdiff.mpr ⟨member, fresh⟩, ?_⟩
  simp [isNew]

variable [DecidableEq δ]

/-- Take rounds until one adds nothing; return the taken set and the labels
recorded on the way. -/
def saturate (candidates : Finset α) (label : Finset α → α → Option δ)
    (taken : Finset α) (labels : Finset δ) : Finset α × Finset δ :=
  if newly candidates label taken = ∅ then (taken, labels)
  else
    saturate candidates label (taken ∪ newly candidates label taken)
      (labels ∪ (newly candidates label taken).biUnion fun item =>
        (label taken item).toFinset)
termination_by (candidates \ taken).card
decreasing_by
  rename_i progress
  exact card_sdiff_newly_lt progress

def Monotone (label : Finset α → α → Option δ) : Prop :=
  ∀ ⦃first second : Finset α⦄, first ⊆ second →
    ∀ item, (label first item).isSome → (label second item).isSome

section Rules

variable {candidates : Finset α} {label : Finset α → α → Option δ}

theorem subset_saturate (taken : Finset α) (labels : Finset δ) :
    taken ⊆ (saturate candidates label taken labels).1 := by
  induction taken, labels using saturate.induct candidates label with
  | case1 taken labels done => rw [saturate, if_pos done]
  | case2 taken labels progress ih =>
      rw [saturate, if_neg progress]
      exact Finset.subset_union_left.trans ih

theorem labels_subset_saturate (taken : Finset α) (labels : Finset δ) :
    labels ⊆ (saturate candidates label taken labels).2 := by
  induction taken, labels using saturate.induct candidates label with
  | case1 taken labels done => rw [saturate, if_pos done]
  | case2 taken labels progress ih =>
      rw [saturate, if_neg progress]
      exact Finset.subset_union_left.trans ih

/-- The result is closed: nothing outside it is still admitted by it. -/
theorem mem_saturate_of_admitted (taken : Finset α) (labels : Finset δ) {item : α}
    (member : item ∈ candidates)
    (admitted : (label (saturate candidates label taken labels).1 item).isSome) :
    item ∈ (saturate candidates label taken labels).1 := by
  induction taken, labels using saturate.induct candidates label with
  | case1 taken labels done =>
      rw [saturate, if_pos done] at admitted ⊢
      by_contra fresh
      have isNew : item ∈ newly candidates label taken :=
        mem_newly.mpr ⟨member, fresh, admitted⟩
      rw [done] at isNew
      exact Finset.notMem_empty item isNew
  | case2 taken labels progress ih =>
      rw [saturate, if_neg progress] at admitted ⊢
      exact ih admitted

theorem saturate_subset_of_closed (monotone : Monotone label)
    {taken : Finset α} (labels : Finset δ) {closed : Finset α} (start : taken ⊆ closed)
    (closes : ∀ item ∈ candidates, (label closed item).isSome → item ∈ closed) :
    (saturate candidates label taken labels).1 ⊆ closed := by
  induction taken, labels using saturate.induct candidates label with
  | case1 taken labels done =>
      rw [saturate, if_pos done]
      exact start
  | case2 taken labels progress ih =>
      rw [saturate, if_neg progress]
      apply ih
      apply Finset.union_subset start
      intro item isNew
      obtain ⟨member, -, admitted⟩ := mem_newly.mp isNew
      exact closes item member (monotone start item admitted)

/-- Every element of the result that was not there at the start was admitted
by an earlier stage of the taken set. -/
theorem exists_stage_of_mem_saturate (taken : Finset α) (labels : Finset δ) {item : α}
    (member : item ∈ (saturate candidates label taken labels).1) (fresh : item ∉ taken) :
    ∃ stage ⊆ (saturate candidates label taken labels).1, item ∈ candidates ∧
      item ∉ stage ∧ ∃ value ∈ (saturate candidates label taken labels).2,
        label stage item = some value := by
  induction taken, labels using saturate.induct candidates label with
  | case1 taken labels done =>
      rw [saturate, if_pos done] at member
      exact absurd member fresh
  | case2 taken labels progress ih =>
      rw [saturate, if_neg progress] at member ⊢
      by_cases isNew : item ∈ newly candidates label taken
      · obtain ⟨inCandidates, -, admitted⟩ := mem_newly.mp isNew
        obtain ⟨value, found⟩ := Option.isSome_iff_exists.mp admitted
        refine ⟨taken, Finset.subset_union_left.trans (subset_saturate _ _), inCandidates,
          fresh, value, ?_, found⟩
        apply labels_subset_saturate
        apply Finset.mem_union_right
        rw [Finset.mem_biUnion]
        exact ⟨item, isNew, by simp [found]⟩
      · apply ih member
        simp [fresh, isNew]

/-- Every recorded label was given to an element of the result by a stage that
did not have it yet. -/
theorem exists_stage_of_mem_labels (taken : Finset α) (labels : Finset δ) {value : δ}
    (member : value ∈ (saturate candidates label taken labels).2) (fresh : value ∉ labels) :
    ∃ stage ⊆ (saturate candidates label taken labels).1,
      ∃ item ∈ (saturate candidates label taken labels).1, item ∈ candidates ∧
        item ∉ stage ∧ label stage item = some value := by
  induction taken, labels using saturate.induct candidates label with
  | case1 taken labels done =>
      rw [saturate, if_pos done] at member
      exact absurd member fresh
  | case2 taken labels progress ih =>
      rw [saturate, if_neg progress] at member ⊢
      by_cases isNew : value ∈ (newly candidates label taken).biUnion fun item =>
          (label taken item).toFinset
      · obtain ⟨item, itemNew, found⟩ := Finset.mem_biUnion.mp isNew
        obtain ⟨inCandidates, notTaken, -⟩ := mem_newly.mp itemNew
        refine ⟨taken, Finset.subset_union_left.trans (subset_saturate _ _), item, ?_,
          inCandidates, notTaken, by simpa using found⟩
        exact subset_saturate _ _ (Finset.mem_union_right _ itemNew)
      · apply ih member
        rw [Finset.mem_union]
        exact not_or.mpr ⟨fresh, isNew⟩

end Rules

end Saturation

end SharedContext
