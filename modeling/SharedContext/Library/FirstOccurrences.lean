import Mathlib

/-!
# First occurrences

Values appended to a list in turn, each unless it is there already.
-/

namespace SharedContext

variable {α : Type*} [DecidableEq α]

/-- Append each value that is not yet in the list. -/
def appendNew (kept values : List α) : List α :=
  values.foldl (fun kept value => if value ∈ kept then kept else kept ++ [value]) kept

@[simp]
theorem appendNew_nil (kept : List α) : appendNew kept [] = kept :=
  rfl

theorem appendNew_cons (kept values : List α) (value : α) :
    appendNew kept (value :: values) =
      appendNew (if value ∈ kept then kept else kept ++ [value]) values :=
  rfl

theorem appendNew_append (kept values more : List α) :
    appendNew kept (values ++ more) = appendNew (appendNew kept values) more :=
  List.foldl_append

theorem mem_appendNew {kept values : List α} {value : α} :
    value ∈ appendNew kept values ↔ value ∈ kept ∨ value ∈ values := by
  induction values generalizing kept with
  | nil => simp
  | cons first rest ih =>
      rw [appendNew_cons, ih, List.mem_cons]
      split
      · rename_i present
        constructor
        · rintro (old | inRest)
          · exact Or.inl old
          · exact Or.inr (Or.inr inRest)
        · rintro (old | rfl | inRest)
          · exact Or.inl old
          · exact Or.inl present
          · exact Or.inr inRest
      · rw [List.mem_append, List.mem_singleton, or_assoc]

theorem nodup_appendNew {kept : List α} (distinct : kept.Nodup) (values : List α) :
    (appendNew kept values).Nodup := by
  induction values generalizing kept with
  | nil => exact distinct
  | cons first rest ih =>
      rw [appendNew_cons]
      split
      · exact ih distinct
      · rename_i absent
        exact ih (List.nodup_append'.mpr ⟨distinct, List.nodup_singleton _, by simpa using absent⟩)

/-- What is appended comes in the order of the values. -/
theorem exists_appendNew_eq (kept values : List α) :
    ∃ new, appendNew kept values = kept ++ new ∧ new.Sublist values := by
  induction values generalizing kept with
  | nil => exact ⟨[], by simp, .slnil⟩
  | cons first rest ih =>
      rw [appendNew_cons]
      split
      · obtain ⟨new, newEq, sublist⟩ := ih kept
        exact ⟨new, newEq, sublist.cons first⟩
      · obtain ⟨new, newEq, sublist⟩ := ih (kept ++ [first])
        exact ⟨first :: new, by simpa using newEq, sublist.cons_cons first⟩

theorem appendNew_of_nodup {values : List α} (distinct : values.Nodup) (kept : List α) :
    appendNew kept values = kept ++ values.filter (· ∉ kept) := by
  induction values generalizing kept with
  | nil => simp
  | cons first rest ih =>
      obtain ⟨notInRest, restDistinct⟩ := List.nodup_cons.mp distinct
      rw [appendNew_cons, ih restDistinct]
      by_cases present : first ∈ kept
      · simp [present]
      · have sameFilter : rest.filter (· ∉ kept ++ [first]) = rest.filter (· ∉ kept) := by
          apply List.filter_congr
          intro other otherMember
          have distinctOther : other ≠ first := by
            rintro rfl
            exact notInRest otherMember
          simp [distinctOther]
        rw [if_neg present, sameFilter]
        simp [present]

end SharedContext
