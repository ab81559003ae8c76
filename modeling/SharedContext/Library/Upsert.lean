import Mathlib.Order.BoundedOrder.Lattice
import Mathlib.Order.MinMax
import Mathlib.Data.List.Perm.Basic
import SharedContext.Library.Table

/-!
# Upserts

A row is inserted, or changes the row that has its key where that is allowed.
What is stored under a key after upserts that keep the larger value does not
depend on their order.
-/

namespace SharedContext

namespace Table

variable {Row Key : Type*} {key : Row → Key} [DecidableEq Key]

/-- Insert a row, or change the row with its key where `overwrites` allows it. -/
def upsert (table : Table Row key) (row : Row) (overwrites : Row → Bool) (change : Row → Row)
    (keepsKey : ∀ row, key (change row) = key row) : Table Row key :=
  match table.insert row with
  | some inserted => inserted
  | none =>
      table.updateWhere (fun old => decide (key old = key row) && overwrites old) change keepsKey

/-- Insert a row unless its key is taken. -/
def insertMissing (table : Table Row key) (row : Row) : Table Row key :=
  (table.insert row).getD table

variable {table : Table Row key}

theorem find?_insert {after : Table Row key} {row : Row}
    (inserted : table.insert row = some after) (wanted : Key) :
    after.find? wanted = if wanted = key row then some row else table.find? wanted := by
  obtain ⟨fresh, rowsEq⟩ := insert_eq_some.mp inserted
  simp only [find?, rowsEq, List.find?_append]
  by_cases same : wanted = key row
  · subst same
    have absent : table.rows.find? (fun other => decide (key other = key row)) = none := by
      simpa [List.find?_eq_none, mem_def] using fresh
    simp [absent]
  · have other : ¬ key row = wanted := Ne.symm same
    simp [same, other]

theorem find?_updateWhere (condition : Row → Bool) {change : Row → Row}
    (keepsKey : ∀ row, key (change row) = key row) (wanted : Key) :
    (table.updateWhere condition change keepsKey).find? wanted =
      (table.find? wanted).map fun row => if condition row then change row else row := by
  have sameKey (row : Row) : key (if condition row then change row else row) = key row := by
    split
    · exact keepsKey row
    · rfl
  simp [find?, updateWhere, List.find?_map, Function.comp_def, sameKey]

theorem find?_insertMissing (row : Row) (wanted : Key) :
    (table.insertMissing row).find? wanted =
      if wanted = key row then some ((table.find? wanted).getD row) else table.find? wanted := by
  unfold insertMissing
  cases inserted : table.insert row with
  | some after =>
      rw [Option.getD_some, find?_insert inserted]
      split
      · rename_i same
        have absent : table.find? wanted = none :=
          find?_eq_none.mpr (same ▸ (insert_eq_some.mp inserted).1)
        rw [absent, Option.getD_none]
      · rfl
  | none =>
      rw [Option.getD_none]
      split
      · rename_i same
        have taken := insert_eq_none.mp inserted
        cases found : table.find? wanted with
        | none => exact absurd (same ▸ find?_eq_none.mp found) taken
        | some old => rfl
      · rfl

theorem find?_upsert (row : Row) (overwrites : Row → Bool) {change : Row → Row}
    (keepsKey : ∀ row, key (change row) = key row) (wanted : Key) :
    (table.upsert row overwrites change keepsKey).find? wanted =
      if wanted = key row then
        some (((table.find? wanted).map fun old =>
          if overwrites old then change old else old).getD row)
      else table.find? wanted := by
  unfold upsert
  cases inserted : table.insert row with
  | some after =>
      rw [find?_insert inserted]
      split
      · rename_i same
        have absent : table.find? wanted = none :=
          find?_eq_none.mpr (same ▸ (insert_eq_some.mp inserted).1)
        simp [absent]
      · rfl
  | none =>
      simp only [find?_updateWhere]
      cases found : table.find? wanted with
      | none =>
          have unequal : wanted ≠ key row := by
            rintro rfl
            exact insert_eq_none.mp inserted (find?_eq_none.mp found)
          simp [unequal]
      | some old =>
          have oldKey := (find?_eq_some.mp found).2
          by_cases same : wanted = key row <;> simp [oldKey, same]

end Table

/-! ### Joins -/

section Joins

variable {α β : Type*} [LinearOrder β]

/-- What a start and some events join to. -/
def joined (value : α → β) (start : β) (events : List α) : β :=
  events.foldl (fun current event => max current (value event)) start

variable {value : α → β} {start : β}

theorem joined_append (events more : List α) :
    joined value start (events ++ more) = joined value (joined value start events) more :=
  List.foldl_append

theorem joined_map {γ : Type*} (change : γ → α) (events : List γ) :
    joined value start (events.map change) = joined (value ∘ change) start events :=
  List.foldl_map

theorem joined_eq_max [OrderBot β] (start : β) (events : List α) :
    joined value start events = max start (joined value ⊥ events) := by
  induction events generalizing start with
  | nil => exact (max_eq_left bot_le).symm
  | cons event rest ih =>
      calc
        joined value start (event :: rest) = joined value (max start (value event)) rest := rfl
        _ = max (max start (value event)) (joined value ⊥ rest) := ih _
        _ = max start (max (value event) (joined value ⊥ rest)) := max_assoc _ _ _
        _ = max start (joined value (value event) rest) := by rw [← ih]
        _ = max start (joined value (max ⊥ (value event)) rest) := by rw [max_eq_right bot_le]

theorem start_le_joined (events : List α) : start ≤ joined value start events := by
  induction events generalizing start with
  | nil => exact le_rfl
  | cons event rest ih => exact (le_max_left start (value event)).trans ih

theorem le_joined {events : List α} {event : α} (member : event ∈ events) :
    value event ≤ joined value start events := by
  induction events generalizing start with
  | nil => exact absurd member List.not_mem_nil
  | cons first rest ih =>
      rcases List.mem_cons.mp member with rfl | member
      · exact (le_max_right start _).trans (start_le_joined rest)
      · exact ih member

theorem joined_le {events : List α} {bound : β} (startLe : start ≤ bound)
    (eventLe : ∀ event ∈ events, value event ≤ bound) : joined value start events ≤ bound := by
  induction events generalizing start with
  | nil => exact startLe
  | cons first rest ih =>
      have headLe : max start (value first) ≤ bound :=
        max_le startLe (eventLe first List.mem_cons_self)
      exact ih headLe fun event member => eventLe event (List.mem_cons_of_mem _ member)

theorem joined_mem (start : β) (events : List α) :
    joined value start events = start ∨
      ∃ event ∈ events, joined value start events = value event := by
  induction events generalizing start with
  | nil => exact Or.inl rfl
  | cons first rest ih =>
      rcases ih (max start (value first)) with isStart | ⟨event, member, isEvent⟩
      · rcases max_choice start (value first) with left | right
        · exact Or.inl (isStart.trans left)
        · exact Or.inr ⟨first, List.mem_cons_self, isStart.trans right⟩
      · exact Or.inr ⟨event, List.mem_cons_of_mem _ member, isEvent⟩

/-- The order of events does not matter. -/
theorem joined_perm {events reordered : List α} (perm : events.Perm reordered) :
    joined value start events = joined value start reordered := by
  refine perm.foldl_eq' ?_ start
  intro first _ second _ current
  exact max_right_comm current _ _

end Joins

end SharedContext
