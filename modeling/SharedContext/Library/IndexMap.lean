import Mathlib

/-!
# Maps that keep the order of insertion

A map is the list of its entries.  Inserting under a key that is there changes
its entry in place; removing a key leaves the other entries in their order.
-/

namespace SharedContext.IndexMap

variable {κ ν : Type} [DecidableEq κ]

def get? (key : κ) : List (κ × ν) → Option ν
  | [] => none
  | entry :: rest => if entry.1 = key then some entry.2 else get? key rest

def insert (key : κ) (value : ν) : List (κ × ν) → List (κ × ν)
  | [] => [(key, value)]
  | entry :: rest =>
      if entry.1 = key then (key, value) :: rest else entry :: insert key value rest

/-- The entries without those of some keys. -/
def removeAll (keys : List κ) (entries : List (κ × ν)) : List (κ × ν) :=
  entries.filter fun entry => entry.1 ∉ keys

@[simp]
theorem get?_insert (key other : κ) (value : ν) (entries : List (κ × ν)) :
    get? other (insert key value entries) =
      if other = key then some value else get? other entries := by
  induction entries with
  | nil =>
      by_cases same : other = key
      · simp [insert, get?, same]
      · simp [insert, get?, same, Ne.symm same]
  | cons entry rest ih =>
      by_cases isKey : entry.1 = key
      · rw [insert, if_pos isKey, get?, get?, isKey]
        by_cases same : other = key
        · simp [same]
        · simp [same, Ne.symm same]
      · rw [insert, if_neg isKey, get?, get?, ih]
        by_cases isOther : entry.1 = other
        · have different : other ≠ key := isOther ▸ isKey
          simp [isOther, different]
        · simp [isOther]

/-- Inserting what is there changes nothing. -/
theorem insert_of_get? {key : κ} {value : ν} {entries : List (κ × ν)}
    (found : get? key entries = some value) : insert key value entries = entries := by
  induction entries with
  | nil => simp [get?] at found
  | cons entry rest ih =>
      rw [get?] at found
      by_cases isKey : entry.1 = key
      · rw [if_pos isKey] at found
        rw [insert, if_pos isKey, ← isKey, ← Option.some.inj found]
      · rw [if_neg isKey] at found
        rw [insert, if_neg isKey, ih found]

theorem insert_insert (key : κ) (first second : ν) (entries : List (κ × ν)) :
    insert key second (insert key first entries) = insert key second entries := by
  induction entries with
  | nil => simp [insert]
  | cons entry rest ih =>
      by_cases isKey : entry.1 = key
      · simp [insert, isKey]
      · simp [insert, isKey, ih]

@[simp]
theorem get?_removeAll (keys : List κ) (key : κ) (entries : List (κ × ν)) :
    get? key (removeAll keys entries) = if key ∈ keys then none else get? key entries := by
  induction entries with
  | nil => simp [removeAll, get?]
  | cons entry rest ih =>
      rw [removeAll] at ih ⊢
      by_cases removed : entry.1 ∈ keys
      · rw [List.filter_cons_of_neg (by simpa using removed), ih, get?]
        by_cases isKey : entry.1 = key
        · have keyRemoved : key ∈ keys := isKey ▸ removed
          rw [if_pos keyRemoved, if_pos keyRemoved]
        · rw [if_neg isKey]
      · rw [List.filter_cons_of_pos (by simpa using removed), get?, get?, ih]
        by_cases isKey : entry.1 = key
        · have keyKept : key ∉ keys := isKey ▸ removed
          simp [isKey, keyKept]
        · rw [if_neg isKey, if_neg isKey]

@[simp]
theorem removeAll_nil (entries : List (κ × ν)) : removeAll [] entries = entries := by
  simp [removeAll]

theorem get?_eq_none {key : κ} {entries : List (κ × ν)} :
    get? key entries = none ↔ key ∉ entries.map Prod.fst := by
  induction entries with
  | nil => simp [get?]
  | cons entry rest ih =>
      rw [get?, List.map_cons, List.mem_cons]
      by_cases isKey : entry.1 = key
      · simp [isKey]
      · simp [isKey, ih, Ne.symm isKey]

end SharedContext.IndexMap
