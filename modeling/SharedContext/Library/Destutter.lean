import Mathlib

/-!
# Dropping repeated neighbours

A list without its repeated neighbours has the same members, and no repetitions if it
was sorted.
-/

namespace SharedContext

theorem mem_destutter'_ne {α : Type} [DecidableEq α] {first item : α} {items : List α} :
    item ∈ items.destutter' (· ≠ ·) first ↔ item = first ∨ item ∈ items := by
  induction items generalizing first with
  | nil => simp
  | cons next items ih =>
      by_cases same : first = next
      · rw [List.destutter'_cons_neg _ (by simpa using same), ih]
        simp [same]
      · rw [List.destutter'_cons_pos _ same, List.mem_cons, ih, List.mem_cons]

theorem mem_destutter_ne {α : Type} [DecidableEq α] {item : α} {items : List α} :
    item ∈ items.destutter (· ≠ ·) ↔ item ∈ items := by
  cases items with
  | nil => simp
  | cons first items => rw [List.destutter_cons', mem_destutter'_ne, List.mem_cons]

/-- A sorted list without its repeated neighbours has no repetitions. -/
theorem nodup_destutter_ne {α : Type} [LinearOrder α] {items : List α}
    (sorted : items.Pairwise (· ≤ ·)) : (items.destutter (· ≠ ·)).Nodup := by
  have sortedRest := sorted.sublist (items.destutter_sublist (· ≠ ·))
  have chain := items.isChain_destutter (· ≠ ·)
  generalize items.destutter (· ≠ ·) = rest at sortedRest chain
  induction rest with
  | nil => exact List.nodup_nil
  | cons first rest ih =>
      rw [List.pairwise_cons] at sortedRest
      refine List.nodup_cons.mpr ⟨fun member => ?_, ih sortedRest.2 chain.tail⟩
      cases rest with
      | nil => simp at member
      | cons second rest =>
          have secondLe : second ≤ first := by
            rcases List.mem_cons.mp member with same | later
            · exact same.ge
            · exact (List.pairwise_cons.mp sortedRest.2).1 first later
          have firstLe := sortedRest.1 second List.mem_cons_self
          exact (List.isChain_cons_cons.mp chain).1 (le_antisymm firstLe secondLe)

end SharedContext
