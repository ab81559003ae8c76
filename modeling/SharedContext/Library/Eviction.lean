import Mathlib

/-!
# Eviction of the least rows

A bounded table drops as many of its least rows as it has too many.  With
distinct keys it keeps the rows that at least that many others precede.
-/

namespace SharedContext

variable {α κ : Type*} [LinearOrder κ]

/-- The rows but for the `excess` of them with the least keys. -/
def dropLeast (key : α → κ) (excess : Nat) (rows : List α) : List α :=
  rows.filter fun row => key row ∉ ((rows.map key).insertionSort (· ≤ ·)).take excess

variable {key : α → κ} {excess : Nat} {rows : List α}

theorem dropLeast_sublist : (dropLeast key excess rows).Sublist rows :=
  List.filter_sublist

@[simp]
theorem dropLeast_zero : dropLeast key 0 rows = rows := by
  simp [dropLeast]

/-- What precedes a value in a strictly sorted list are the values below it. -/
theorem mem_take_iff_count_below {sorted : List κ} (strict : sorted.Pairwise (· < ·)) {value : κ}
    (member : value ∈ sorted) (number : Nat) :
    value ∈ sorted.take number ↔ (sorted.filter (· < value)).length < number := by
  induction sorted generalizing number with
  | nil => exact absurd member List.not_mem_nil
  | cons first rest ih =>
      obtain ⟨firstBelow, restStrict⟩ := List.pairwise_cons.mp strict
      cases number with
      | zero => simp
      | succ number =>
          by_cases isFirst : value = first
          · subst isFirst
            have noneBelow : rest.filter (· < value) = [] := by
              apply List.filter_eq_nil_iff.mpr
              intro other otherMember
              simpa using (firstBelow other otherMember).le
            simp [noneBelow]
          · have inRest := (List.mem_cons.mp member).resolve_left isFirst
            have below := firstBelow value inRest
            rw [List.take_succ_cons, List.mem_cons, ih restStrict inRest]
            simp [isFirst, below]

private theorem sorted_keys_strict (distinct : (rows.map key).Nodup) :
    ((rows.map key).insertionSort (· ≤ ·)).Pairwise (· < ·) := by
  have sorted := List.pairwise_insertionSort (· ≤ ·) (rows.map key)
  have nodup := (List.perm_insertionSort (· ≤ ·) (rows.map key)).nodup_iff.mpr distinct
  refine (sorted.and nodup).imp ?_
  intro first second ordered
  exact lt_of_le_of_ne ordered.1 ordered.2

/-- A row is kept exactly if enough others precede it. -/
theorem mem_dropLeast (distinct : (rows.map key).Nodup) {row : α} :
    row ∈ dropLeast key excess rows ↔
      row ∈ rows ∧ excess ≤ (rows.filter fun other => key other < key row).length := by
  rw [dropLeast, List.mem_filter, decide_eq_true_eq]
  refine and_congr_right fun member => ?_
  have perm := List.perm_insertionSort (· ≤ ·) (rows.map key)
  have keyMember := perm.mem_iff.mpr (List.mem_map_of_mem (f := key) member)
  rw [mem_take_iff_count_below (sorted_keys_strict distinct) keyMember, not_lt]
  have sameCount : (((rows.map key).insertionSort (· ≤ ·)).filter (· < key row)).length =
      (rows.filter fun other => key other < key row).length := by
    rw [(perm.filter _).length_eq, List.filter_map, List.length_map]
    rfl
  rw [sameCount]

theorem length_dropLeast (distinct : (rows.map key).Nodup) :
    (dropLeast key excess rows).length = rows.length - excess := by
  let sorted := (rows.map key).insertionSort (· ≤ ·)
  have perm : sorted.Perm (rows.map key) := List.perm_insertionSort (· ≤ ·) (rows.map key)
  have nodup : sorted.Nodup := perm.nodup_iff.mpr distinct
  have dropped : sorted.filter (· ∉ sorted.take excess) = sorted.drop excess := by
    have disjoint := List.disjoint_take_drop nodup (le_refl excess)
    conv_lhs => rw [← List.take_append_drop excess sorted]
    rw [List.filter_append]
    have noneTaken : (sorted.take excess).filter (· ∉ sorted.take excess) = [] := by
      simp
    have allDropped : (sorted.drop excess).filter (· ∉ sorted.take excess) =
        sorted.drop excess := by
      apply List.filter_eq_self.mpr
      intro value member
      simpa using fun taken => disjoint taken member
    rw [List.take_append_drop, noneTaken, allDropped, List.nil_append]
  calc
    (dropLeast key excess rows).length
        = ((rows.map key).filter (· ∉ sorted.take excess)).length := by
          rw [List.filter_map, List.length_map]
          rfl
    _ = (sorted.filter (· ∉ sorted.take excess)).length := ((perm.filter _).length_eq).symm
    _ = rows.length - excess := by
          rw [dropped, List.length_drop, perm.length_eq, List.length_map]

end SharedContext
