import SharedContext.Library.Entries

/-!
# Edits of a finite map

An edit touches some keys and leaves the others alone.  Edits that touch
different keys may be made one after the other: each finds the keys it touches as
they were.
-/

namespace SharedContext.BTreeMap

variable {κ ν Edit : Type*} [DecidableEq κ]

def erase (table : BTreeMap κ ν) (key : κ) : BTreeMap κ ν :=
  table.filter fun other _ => other ≠ key

@[simp]
theorem get?_erase (table : BTreeMap κ ν) (key other : κ) :
    (table.erase key).get? other = if other = key then none else table.get? other := by
  rw [erase, filter, get?_filterMap]
  by_cases same : other = key
  · simp [same]
  · cases table.get? other <;> simp [same]

section Applying

variable (touched : Edit → List κ) (apply : BTreeMap κ ν → Edit → BTreeMap κ ν)

/-- An edit leaves the keys it does not touch alone. -/
def LeavesUntouched : Prop :=
  ∀ table edit key, key ∉ touched edit → (apply table edit).get? key = table.get? key

/-- On a map that agrees with the old one where it touches, an edit gives what the
new one has there. -/
def Reaches (old new : BTreeMap κ ν) (edit : Edit) : Prop :=
  ∀ table : BTreeMap κ ν, (∀ key ∈ touched edit, table.get? key = old.get? key) →
    ∀ key ∈ touched edit, (apply table edit).get? key = new.get? key

variable {touched apply}

/-- After edits that touch different keys, a key is as in the new map if it was
touched, and as before if it was not. -/
theorem get?_foldl_edits (leaves : LeavesUntouched touched apply) {old new table : BTreeMap κ ν}
    {edits : List Edit} (apart : (edits.flatMap touched).Nodup)
    (agrees : ∀ key ∈ edits.flatMap touched, table.get? key = old.get? key)
    (reaches : ∀ edit ∈ edits, Reaches touched apply old new edit) (key : κ) :
    (edits.foldl apply table).get? key =
      if key ∈ edits.flatMap touched then new.get? key else table.get? key := by
  induction edits generalizing table with
  | nil => rfl
  | cons edit rest ih =>
      rw [List.flatMap_cons, List.nodup_append] at apart
      obtain ⟨_, restApart, disjoint⟩ := apart
      have notTouched : ∀ other ∈ rest.flatMap touched, other ∉ touched edit :=
        fun other inRest touches => disjoint other touches other inRest rfl
      have restAgrees : ∀ other ∈ rest.flatMap touched,
          (apply table edit).get? other = old.get? other := by
        intro other inRest
        rw [leaves table edit other (notTouched other inRest)]
        exact agrees other (List.mem_append_right _ inRest)
      rw [List.foldl_cons, ih restApart restAgrees
        fun other member => reaches other (List.mem_cons_of_mem _ member), List.flatMap_cons]
      by_cases inRest : key ∈ rest.flatMap touched
      · rw [if_pos inRest, if_pos (List.mem_append_right _ inRest)]
      · rw [if_neg inRest]
        by_cases touches : key ∈ touched edit
        · rw [if_pos (List.mem_append_left _ touches)]
          exact reaches edit List.mem_cons_self table
            (fun other member => agrees other (List.mem_append_left _ member)) key touches
        · have untouched : key ∉ touched edit ++ rest.flatMap touched := by
            rw [List.mem_append]
            exact not_or.mpr ⟨touches, inRest⟩
          rw [if_neg untouched]
          exact leaves table edit key touches

/-- Edits that touch different keys, every key at which two maps differ among them,
lead from one map to the other. -/
theorem foldl_edits_eq (leaves : LeavesUntouched touched apply) {old new : BTreeMap κ ν}
    {edits : List Edit} (apart : (edits.flatMap touched).Nodup)
    (reaches : ∀ edit ∈ edits, Reaches touched apply old new edit)
    (complete : ∀ key, key ∉ edits.flatMap touched → old.get? key = new.get? key) :
    edits.foldl apply old = new := by
  ext1 key
  rw [get?_foldl_edits leaves apart (fun _ _ => rfl) reaches]
  split
  · rfl
  · rename_i untouched
    exact complete key untouched

end Applying

end SharedContext.BTreeMap
