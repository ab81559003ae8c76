import SharedContext.Library.Saturation

/-!
# Rounds of a saturation

The loop of a saturation ends after at most one round for each candidate, and
whoever admits elements in another order, some at a time, ends where it does.
-/

namespace SharedContext

namespace Saturation

variable {α δ : Type*} [DecidableEq α] {candidates : Finset α} {label : Finset α → α → Option δ}

def rounds (candidates : Finset α) (label : Finset α → α → Option δ) (taken : Finset α) :
    Nat → Finset α
  | 0 => taken
  | count + 1 => rounds candidates label (taken ∪ newly candidates label taken) count

/-- The elements admitted so far, when each step admits any that may be. -/
inductive Admits (candidates : Finset α) (label : Finset α → α → Option δ) (start : Finset α) :
    Finset α → Prop
  | start : Admits candidates label start start
  | more {taken : Finset α} (batch : Finset α) (earlier : Admits candidates label start taken)
      (admitted : batch ⊆ newly candidates label taken) :
      Admits candidates label start (taken ∪ batch)

variable [DecidableEq δ]

/-- The loop ends, after at most as many rounds as there are candidates left. -/
theorem exists_rounds_stuck (candidates : Finset α) (label : Finset α → α → Option δ)
    (taken : Finset α) (labels : Finset δ) :
    ∃ count ≤ (candidates \ taken).card,
      rounds candidates label taken count = (saturate candidates label taken labels).1 ∧
      newly candidates label (rounds candidates label taken count) = ∅ := by
  induction taken, labels using saturate.induct candidates label with
  | case1 taken labels done =>
      refine ⟨0, Nat.zero_le _, ?_, done⟩
      rw [saturate, if_pos done]
      rfl
  | case2 taken labels progress ih =>
      obtain ⟨count, bounded, ended, stuck⟩ := ih
      refine ⟨count + 1, ?_, ?_, stuck⟩
      · obtain ⟨item, isNew⟩ := Finset.nonempty_iff_ne_empty.mpr progress
        obtain ⟨member, fresh, -⟩ := mem_newly.mp isNew
        have fewer : candidates \ (taken ∪ newly candidates label taken) ⊂
            candidates \ taken := by
          refine (Finset.ssubset_iff_of_subset
            (Finset.sdiff_subset_sdiff subset_rfl Finset.subset_union_left)).mpr ?_
          exact ⟨item, Finset.mem_sdiff.mpr ⟨member, fresh⟩, by simp [isNew]⟩
        have smaller := Finset.card_lt_card fewer
        omega
      · rw [saturate, if_neg progress]
        exact ended

theorem Admits.subset {taken : Finset α} {start : Finset α} (monotone : Monotone label)
    (reached : Admits candidates label start taken) (labels : Finset δ) :
    taken ⊆ (saturate candidates label start labels).1 := by
  induction reached with
  | start => exact subset_saturate start labels
  | more batch earlier admitted ih =>
      refine Finset.union_subset ih fun item inBatch => ?_
      obtain ⟨member, -, labelled⟩ := mem_newly.mp (admitted inBatch)
      exact mem_saturate_of_admitted start labels member (monotone ih item labelled)

theorem Admits.start_subset {taken start : Finset α} (reached : Admits candidates label start taken) :
    start ⊆ taken := by
  induction reached with
  | start => exact subset_rfl
  | more batch earlier admitted ih => exact ih.trans Finset.subset_union_left

theorem Admits.eq_saturate {taken start : Finset α} (monotone : Monotone label)
    (reached : Admits candidates label start taken)
    (stuck : newly candidates label taken = ∅) (labels : Finset δ) :
    taken = (saturate candidates label start labels).1 := by
  refine Finset.Subset.antisymm (reached.subset monotone labels) ?_
  refine saturate_subset_of_closed monotone labels reached.start_subset ?_
  intro item member labelled
  by_contra fresh
  have isNew := mem_newly.mpr ⟨member, fresh, labelled⟩
  rw [stuck] at isNew
  exact Finset.notMem_empty item isNew

end Saturation

end SharedContext
