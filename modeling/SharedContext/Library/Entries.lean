import Mathlib.Algebra.Order.BigOperators.Group.Finset
import SharedContext.Library.BTreeMap

/-!
# Updating the entries of a map in place

An entry is changed where it stands, or started from a default.  Updates that
only add to an entry leave a map that has grown: every entry is still there,
with at least what it had.
-/

namespace SharedContext.BTreeMap

variable {κ ν : Type*}

section Updating

variable [DecidableEq κ]

/-- Change the entry of a key, which starts from a default when it is vacant. -/
def upsert (table : BTreeMap κ ν) (key : κ) (vacant : ν) (update : ν → ν) : BTreeMap κ ν :=
  table.insert key (update ((table.get? key).getD vacant))

@[simp]
theorem get?_upsert (table : BTreeMap κ ν) (key other : κ) (vacant : ν) (update : ν → ν) :
    (table.upsert key vacant update).get? other =
      if other = key then some (update ((table.get? key).getD vacant)) else table.get? other := by
  rw [upsert, get?_insert]

/-- Change the entry of a key, if there is one. -/
def modify (table : BTreeMap κ ν) (key : κ) (update : ν → ν) : BTreeMap κ ν :=
  match table.get? key with
  | none => table
  | some value => table.insert key (update value)

@[simp]
theorem get?_modify (table : BTreeMap κ ν) (key other : κ) (update : ν → ν) :
    (table.modify key update).get? other =
      if other = key then (table.get? key).map update else table.get? other := by
  unfold modify
  cases found : table.get? key with
  | none =>
      by_cases same : other = key
      · simp [same, found]
      · simp [same]
  | some value => simp

/-- Changing several entries, each at most once, changes every one by its own update. -/
theorem get?_foldl_modify {δ : Type*} {update : κ → δ → ν → ν} {changes : List (κ × δ)}
    (distinct : (changes.map Prod.fst).Nodup) (table : BTreeMap κ ν) (key : κ) :
    (changes.foldl (fun table change => table.modify change.1 (update change.1 change.2))
        table).get? key =
      match changes.find? fun change => change.1 = key with
      | none => table.get? key
      | some change => (table.get? key).map (update key change.2) := by
  induction changes generalizing table with
  | nil => rfl
  | cons change changes ih =>
      rw [List.map_cons, List.nodup_cons] at distinct
      rw [List.foldl_cons, ih distinct.2, List.find?_cons]
      by_cases same : change.1 = key
      · have absent : (changes.find? fun other => other.1 = key) = none := by
          rw [List.find?_eq_none]
          intro other member
          rw [decide_eq_true_eq]
          rintro rfl
          exact distinct.1 (same ▸ List.mem_map_of_mem member)
        simp [same, absent]
      · simp [same, Ne.symm same]

theorem get?_foldl_insert (pairs : List (κ × ν)) (table : BTreeMap κ ν) (key : κ) :
    (pairs.foldl (fun table pair => table.insert pair.1 pair.2) table).get? key =
      (listed pairs key).getLast?.or (table.get? key) := by
  induction pairs generalizing table with
  | nil => rfl
  | cons pair pairs ih =>
      rw [List.foldl_cons, ih, get?_insert]
      by_cases same : pair.1 = key
      · have here : listed (pair :: pairs) key = pair.2 :: listed pairs key := by
          simp [listed, same]
        rw [here, if_pos same.symm, List.getLast?_cons]
        cases (listed pairs key).getLast? <;> rfl
      · have elsewhere : listed (pair :: pairs) key = listed pairs key := by
          simp [listed, same]
        rw [elsewhere, if_neg (Ne.symm same)]

theorem get?_group_congr {pairs others : List (κ × ν)} {key : κ}
    (same : listed pairs key = listed others key) :
    (group pairs).get? key = (group others).get? key := by
  ext values
  rw [get?_group_eq_some, get?_group_eq_some, same]

/-- Unite sets under their keys: an entry is extended, or started, by every pair. -/
def unite {δ : Type*} [DecidableEq δ] (pairs : List (κ × Finset δ)) : BTreeMap κ (Finset δ) :=
  pairs.foldl (fun table pair => table.upsert pair.1 ∅ (· ∪ pair.2)) empty

theorem mem_unite {δ : Type*} [DecidableEq δ] {pairs : List (κ × Finset δ)} {key : κ}
    {item : δ} :
    (∃ set, (unite pairs).get? key = some set ∧ item ∈ set) ↔
      ∃ set, (key, set) ∈ pairs ∧ item ∈ set := by
  have general : ∀ table : BTreeMap κ (Finset δ),
      (∃ set, (pairs.foldl (fun table pair => table.upsert pair.1 ∅ (· ∪ pair.2)) table).get? key =
          some set ∧ item ∈ set) ↔
        (∃ set, table.get? key = some set ∧ item ∈ set) ∨
          ∃ set, (key, set) ∈ pairs ∧ item ∈ set := by
    induction pairs with
    | nil => simp
    | cons pair pairs ih =>
        intro table
        rw [List.foldl_cons, ih, get?_upsert]
        by_cases same : key = pair.1
        · subst same
          cases found : table.get? pair.1 with
          | none => simp [Prod.ext_iff, or_and_right, exists_or]
          | some set => simp [Prod.ext_iff, or_and_right, exists_or, or_assoc]
        · simp [same, Prod.ext_iff]
  rw [unite, general]
  simp

end Updating

section Listing

variable [LinearOrder κ]

def entries (map : BTreeMap κ ν) : List (κ × ν) :=
  (ordered map.keys).filterMap fun key => (map.get? key).map (Prod.mk key)

theorem mem_entries {map : BTreeMap κ ν} {key : κ} {value : ν} :
    (key, value) ∈ map.entries ↔ map.get? key = some value := by
  rw [entries, ordered_eq_sort, List.mem_filterMap]
  constructor
  · rintro ⟨other, -, found⟩
    obtain ⟨stored, lookup, same⟩ := Option.map_eq_some_iff.mp found
    obtain ⟨rfl, rfl⟩ := Prod.mk.inj same
    exact lookup
  · intro found
    refine ⟨key, (Finset.mem_sort _).mpr (mem_keys_of_get? found), ?_⟩
    rw [found, Option.map_some]


theorem nodup_keys_entries (map : BTreeMap κ ν) : (map.entries.map Prod.fst).Nodup := by
  have sublist : (map.entries.map Prod.fst).Sublist (map.keys.sort (· ≤ ·)) := by
    rw [entries, ordered_eq_sort, List.map_filterMap]
    have keeps : ∀ keys : List κ,
        (keys.filterMap fun key => ((map.get? key).map (Prod.mk key)).map Prod.fst).Sublist
          keys := by
      intro keys
      induction keys with
      | nil => exact List.Sublist.slnil
      | cons key keys ih =>
          rw [List.filterMap_cons]
          cases map.get? key with
          | none => exact ih.cons key
          | some value => exact ih.cons_cons key
    exact keeps _
  exact sublist.nodup (Finset.sort_nodup _ _)

/-- The entry that a search among the entries finds is that of the map. -/
theorem find?_entries [DecidableEq κ] (map : BTreeMap κ ν) (key : κ) :
    (map.entries.find? fun entry => entry.1 = key) = (map.get? key).map (Prod.mk key) := by
  cases found : map.get? key with
  | none =>
      rw [Option.map_none, List.find?_eq_none]
      rintro ⟨other, value⟩ member
      rw [decide_eq_true_eq]
      rintro rfl
      rw [mem_entries.mp member] at found
      exact absurd found (by simp)
  | some value =>
      rw [Option.map_some]
      cases searched : map.entries.find? fun entry => entry.1 = key with
      | none =>
          rw [List.find?_eq_none] at searched
          exact absurd (decide_eq_true rfl) (searched (key, value) (mem_entries.mpr found))
      | some entry =>
          obtain ⟨other, stored⟩ := entry
          have same : other = key := by simpa using List.find?_some searched
          have lookup := mem_entries.mp (List.mem_of_find?_eq_some searched)
          rw [same, found] at lookup
          rw [same, Option.some.inj lookup]

/-- Change the entries that another map has changes for, in the order of the keys. -/
theorem get?_foldl_entries {δ : Type*} [DecidableEq κ] (changes : BTreeMap κ δ) (update : κ → δ → ν → ν)
    (table : BTreeMap κ ν) (key : κ) :
    (changes.entries.foldl (fun table change => table.modify change.1 (update change.1 change.2))
        table).get? key =
      match changes.get? key with
      | none => table.get? key
      | some change => (table.get? key).map (update key change) := by
  rw [get?_foldl_modify (nodup_keys_entries changes), find?_entries]
  cases changes.get? key <;> rfl

end Listing

/-! ### Sums of values -/

section Summing

variable [LinearOrder κ]

/-- The sum of the values of a map of numbers. -/
def sumValues (map : BTreeMap κ Nat) : Nat :=
  (map.entries.map Prod.snd).sum

theorem sumValues_eq (map : BTreeMap κ Nat) :
    map.sumValues = ∑ key ∈ map.keys, (map.get? key).getD 0 := by
  have each : ∀ keys : List κ,
      ((keys.filterMap fun key => (map.get? key).map (Prod.mk key)).map Prod.snd).sum =
        (keys.map fun key => (map.get? key).getD 0).sum := by
    intro keys
    induction keys with
    | nil => rfl
    | cons key keys ih =>
        cases found : map.get? key with
        | none => simp [found, ih]
        | some value => simp [found, ih]
  rw [sumValues, entries, each, ordered_eq_sort, ← List.sum_toFinset _ (Finset.sort_nodup _ _),
    Finset.sort_toFinset]

/-- Changing an entry changes the sum by as much. -/
theorem sumValues_upsert [DecidableEq κ] (table : BTreeMap κ Nat) (key : κ) (update : Nat → Nat) :
    (table.upsert key 0 update).sumValues + (table.get? key).getD 0 =
      table.sumValues + update ((table.get? key).getD 0) := by
  have keys : (table.upsert key 0 update).keys = Insert.insert key table.keys := by
    ext other
    rw [mem_keys, get?_upsert, Finset.mem_insert, mem_keys]
    by_cases same : other = key <;> simp [same]
  have before : table.sumValues =
      ∑ other ∈ Insert.insert key table.keys, (table.get? other).getD 0 := by
    rw [sumValues_eq]
    by_cases member : key ∈ table.keys
    · rw [Finset.insert_eq_of_mem member]
    · rw [Finset.sum_insert member, not_mem_keys_iff.mp member, Option.getD_none, Nat.zero_add]
  have member := Finset.mem_insert_self key table.keys
  have others : ∀ other ∈ (Insert.insert key table.keys).erase key,
      ((table.upsert key 0 update).get? other).getD 0 = (table.get? other).getD 0 := by
    intro other inside
    rw [get?_upsert, if_neg (Finset.ne_of_mem_erase inside)]
  rw [sumValues_eq, keys, before, ← Finset.add_sum_erase _ _ member,
    ← Finset.add_sum_erase _ (fun other => (table.get? other).getD 0) member,
    Finset.sum_congr rfl others, get?_upsert, if_pos rfl, Option.getD_some]
  omega

theorem getD_le_sumValues (table : BTreeMap κ Nat) (key : κ) :
    (table.get? key).getD 0 ≤ table.sumValues := by
  rw [sumValues_eq]
  by_cases member : key ∈ table.keys
  · exact Finset.single_le_sum_of_canonicallyOrdered (f := fun key => (table.get? key).getD 0) member
  · rw [not_mem_keys_iff.mp member]
    exact Nat.zero_le _

end Summing

/-! ### Growing maps -/

/-- Every entry is still there, with at least what it had. -/
def Grows (less : ν → ν → Prop) (before after : BTreeMap κ ν) : Prop :=
  ∀ key value, before.get? key = some value →
    ∃ grown, after.get? key = some grown ∧ less value grown

namespace Grows

variable {less : ν → ν → Prop} {first second third : BTreeMap κ ν}

theorem refl (reflexive : ∀ value, less value value) (map : BTreeMap κ ν) : Grows less map map :=
  fun _ value found => ⟨value, found, reflexive value⟩

theorem trans (transitive : ∀ {one two three}, less one two → less two three → less one three)
    (start : Grows less first second) (rest : Grows less second third) :
    Grows less first third := by
  intro key value found
  obtain ⟨middle, lookup, smaller⟩ := start key value found
  obtain ⟨last, lookup, larger⟩ := rest key middle lookup
  exact ⟨last, lookup, transitive smaller larger⟩

theorem upsert [DecidableEq κ] (reflexive : ∀ value, less value value) (map : BTreeMap κ ν)
    (key : κ) (vacant : ν) {update : ν → ν} (adds : ∀ value, less value (update value)) :
    Grows less map (map.upsert key vacant update) := by
  intro other value found
  rw [get?_upsert]
  by_cases same : other = key
  · subst same
    rw [if_pos rfl, found]
    exact ⟨_, rfl, adds value⟩
  · rw [if_neg same]
    exact ⟨value, found, reflexive value⟩

theorem map [DecidableEq κ] (table : BTreeMap κ ν) {update : ν → ν}
    (adds : ∀ value, less value (update value)) : Grows less table (table.map update) := by
  intro key value found
  rw [get?_map, found]
  exact ⟨update value, rfl, adds value⟩

/-- What every step of a fold adds to, the whole fold adds to. -/
theorem foldl {α : Type*} (reflexive : ∀ value, less value value)
    (transitive : ∀ {one two three}, less one two → less two three → less one three)
    {step : BTreeMap κ ν → α → BTreeMap κ ν} (items : List α) (map : BTreeMap κ ν)
    (adds : ∀ map, ∀ item ∈ items, Grows less map (step map item)) :
    Grows less map (items.foldl step map) := by
  induction items generalizing map with
  | nil => exact refl reflexive map
  | cons item items ih =>
      rw [List.foldl_cons]
      exact (adds map item List.mem_cons_self).trans transitive
        (ih (step map item) fun map other member => adds map other (List.mem_cons_of_mem _ member))

end Grows

/-- What a step puts into a map, a fold over growing steps still has at the end. -/
theorem foldl_reaches {α : Type*} {less : ν → ν → Prop} (reflexive : ∀ value, less value value)
    (transitive : ∀ {one two three}, less one two → less two three → less one three)
    {step : BTreeMap κ ν → α → BTreeMap κ ν} {items : List α} {item : α} (member : item ∈ items)
    (adds : ∀ map, ∀ item ∈ items, Grows less map (step map item)) {key : κ}
    {holds : ν → Prop} (kept : ∀ {value grown}, less value grown → holds value → holds grown)
    (put : ∀ map, ∃ value, (step map item).get? key = some value ∧ holds value)
    (map : BTreeMap κ ν) :
    ∃ value, (items.foldl step map).get? key = some value ∧ holds value := by
  obtain ⟨before, after, rfl⟩ := List.append_of_mem member
  rw [List.foldl_append, List.foldl_cons]
  obtain ⟨value, lookup, satisfied⟩ := put (before.foldl step map)
  have grows := Grows.foldl reflexive transitive after (step (before.foldl step map) item)
    fun map other member => adds map other (by simp [member])
  obtain ⟨grown, found, larger⟩ := grows key value lookup
  exact ⟨grown, found, kept larger satisfied⟩

end SharedContext.BTreeMap
