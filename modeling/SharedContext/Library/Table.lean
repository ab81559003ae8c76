import Mathlib

/-!
# Tables with a primary key

A table keeps its rows in insertion order.  That no two rows share a key is a
field, so a lookup by key is membership, and a statement that would break the
key cannot be expressed.
-/

namespace SharedContext

/-- Rows in insertion order, no two with the same key. -/
structure Table (Row : Type*) {Key : Type*} (key : Row → Key) where
  rows : List Row
  keysNodup : (rows.map key).Nodup

namespace Table

variable {Row Key : Type*} {key : Row → Key}

theorem ext {first second : Table Row key} (equal : first.rows = second.rows) :
    first = second := by
  cases first
  cases second
  cases equal
  rfl

instance : Membership Row (Table Row key) where
  mem table row := row ∈ table.rows

theorem mem_def {table : Table Row key} {row : Row} : row ∈ table ↔ row ∈ table.rows :=
  Iff.rfl

def empty : Table Row key :=
  ⟨[], List.nodup_nil⟩

@[simp]
theorem not_mem_empty (row : Row) : row ∉ (empty : Table Row key) :=
  List.not_mem_nil

/-- The key determines the row. -/
theorem eq_of_key {table : Table Row key} {first second : Row} (firstMem : first ∈ table)
    (secondMem : second ∈ table) (equal : key first = key second) : first = second :=
  List.inj_on_of_nodup_map table.keysNodup firstMem secondMem equal

theorem nodup (table : Table Row key) : table.rows.Nodup :=
  table.keysNodup.of_map

theorem filter_eq_singleton {table : Table Row key} {condition : Row → Bool} {row : Row}
    (rowMem : row ∈ table) (holds : condition row = true)
    (single : ∀ other, condition other = true → key other = key row) :
    table.rows.filter condition = [row] := by
  have onlyRow : ∀ other ∈ table.rows.filter condition, other = row := by
    intro other otherMem
    obtain ⟨stored, otherHolds⟩ := List.mem_filter.mp otherMem
    exact eq_of_key stored rowMem (single other otherHolds)
  have isMem : row ∈ table.rows.filter condition := List.mem_filter.mpr ⟨rowMem, holds⟩
  have nodup : (table.rows.filter condition).Nodup := table.nodup.filter _
  cases filtered : table.rows.filter condition with
  | nil =>
      rw [filtered] at isMem
      exact absurd isMem List.not_mem_nil
  | cons first rest =>
      rw [filtered] at onlyRow nodup
      have firstEq := onlyRow first List.mem_cons_self
      have restEmpty : rest = [] := by
        rw [List.eq_nil_iff_forall_not_mem]
        intro other otherMem
        have otherEq := onlyRow other (List.mem_cons_of_mem _ otherMem)
        exact (List.nodup_cons.mp nodup).1 (firstEq ▸ otherEq ▸ otherMem)
      rw [restEmpty, firstEq]

theorem countP_eq_one {table : Table Row key} {condition : Row → Bool} {row : Row}
    (rowMem : row ∈ table) (holds : condition row = true)
    (single : ∀ other, condition other = true → key other = key row) :
    table.rows.countP condition = 1 := by
  rw [List.countP_eq_length_filter, filter_eq_singleton rowMem holds single]
  rfl

section Lookup

variable [DecidableEq Key]

/-- The row with a key. -/
def find? (table : Table Row key) (wanted : Key) : Option Row :=
  table.rows.find? fun row => key row = wanted

theorem find?_eq_some {table : Table Row key} {wanted : Key} {row : Row} :
    table.find? wanted = some row ↔ row ∈ table ∧ key row = wanted := by
  constructor
  · intro found
    have keyEq := List.find?_some found
    exact ⟨List.mem_of_find?_eq_some found, of_decide_eq_true keyEq⟩
  · intro ⟨rowMem, keyEq⟩
    cases found : table.find? wanted with
    | none =>
        have unmatched := List.find?_eq_none.mp found row rowMem
        exact absurd (decide_eq_true keyEq) unmatched
    | some other =>
        have otherMem := List.mem_of_find?_eq_some found
        have otherMatches : decide (key other = wanted) = true :=
          List.find?_some (p := fun row => decide (key row = wanted)) found
        have otherKey := of_decide_eq_true otherMatches
        rw [eq_of_key rowMem otherMem (keyEq.trans otherKey.symm)]

theorem find?_eq_none {table : Table Row key} {wanted : Key} :
    table.find? wanted = none ↔ ∀ row ∈ table, key row ≠ wanted := by
  simp [find?, List.find?_eq_none, mem_def]

def insert (table : Table Row key) (row : Row) : Option (Table Row key) :=
  if fresh : key row ∉ table.rows.map key then
    some ⟨table.rows ++ [row], by
      rw [List.map_append]
      exact table.keysNodup.append (List.nodup_singleton _) (by simpa using fresh)⟩
  else
    none

theorem insert_eq_some {table after : Table Row key} {row : Row} :
    table.insert row = some after ↔
      (∀ other ∈ table, key other ≠ key row) ∧ after.rows = table.rows ++ [row] := by
  unfold insert
  split
  case isTrue fresh =>
    have fresh' : ∀ other ∈ table, key other ≠ key row := by
      intro other otherMem equal
      exact fresh (List.mem_map.mpr ⟨other, otherMem, equal⟩)
    constructor
    · intro inserted
      cases inserted
      exact ⟨fresh', rfl⟩
    · intro ⟨_, rowsEq⟩
      exact congrArg some (ext rowsEq.symm)
  case isFalse taken =>
    have taken' : ¬ ∀ other ∈ table, key other ≠ key row := by
      intro fresh
      apply taken
      intro rowMem
      obtain ⟨other, otherMem, equal⟩ := List.mem_map.mp rowMem
      exact fresh other otherMem equal
    constructor
    · intro inserted
      cases inserted
    · intro ⟨fresh, _⟩
      exact absurd fresh taken'

theorem insert_eq_none {table : Table Row key} {row : Row} :
    table.insert row = none ↔ ¬ ∀ other ∈ table, key other ≠ key row := by
  rw [Option.eq_none_iff_forall_not_mem]
  constructor
  · intro refused fresh
    have rowFresh : key row ∉ table.rows.map key := by
      intro taken
      obtain ⟨other, otherMem, equal⟩ := List.mem_map.mp taken
      exact fresh other otherMem equal
    exact refused _ (by rw [insert, dif_pos rowFresh]; rfl)
  · intro taken after inserted
    exact taken (insert_eq_some.mp inserted).1

theorem mem_insert {table after : Table Row key} {row : Row}
    (inserted : table.insert row = some after) {other : Row} :
    other ∈ after ↔ other ∈ table ∨ other = row := by
  rw [mem_def, (insert_eq_some.mp inserted).2]
  simp [mem_def]

end Lookup

/-! ### Updates and deletions -/

/-- Replace the rows that satisfy a condition; the replacement keeps the key. -/
def updateWhere (table : Table Row key) (condition : Row → Bool) (change : Row → Row)
    (keepsKey : ∀ row, key (change row) = key row) : Table Row key where
  rows := table.rows.map fun row => if condition row then change row else row
  keysNodup := by
    have keysEq : (key ∘ fun row => if condition row then change row else row) = key := by
      funext row
      simp only [Function.comp_apply]
      split
      · exact keepsKey row
      · rfl
    rw [List.map_map, keysEq]
    exact table.keysNodup

theorem mem_updateWhere {table : Table Row key} {condition : Row → Bool} {change : Row → Row}
    {keepsKey : ∀ row, key (change row) = key row} {row : Row} :
    row ∈ table.updateWhere condition change keepsKey ↔
      ∃ old ∈ table, (if condition old then change old else old) = row :=
  List.mem_map

/-- An update keeps every key. -/
theorem exists_mem_updateWhere {table : Table Row key} {condition : Row → Bool}
    {change : Row → Row} (keepsKey : ∀ row, key (change row) = key row) {row : Row}
    (rowMem : row ∈ table) :
    ∃ other ∈ table.updateWhere condition change keepsKey, key other = key row := by
  refine ⟨_, mem_updateWhere.mpr ⟨row, rowMem, rfl⟩, ?_⟩
  split
  · exact keepsKey row
  · rfl

/-- Delete the rows that satisfy a condition. -/
def deleteWhere (table : Table Row key) (condition : Row → Bool) : Table Row key where
  rows := table.rows.filter fun row => !condition row
  keysNodup := table.keysNodup.sublist (List.filter_sublist.map key)

theorem mem_deleteWhere {table : Table Row key} {condition : Row → Bool} {row : Row} :
    row ∈ table.deleteWhere condition ↔ row ∈ table ∧ condition row = false := by
  simp [mem_def, deleteWhere]

end Table

end SharedContext
