import Mathlib

/-!
# Finite maps with extensional equality

A finite map is a lookup function together with the finite set of keys it
answers.  Two maps that answer every lookup alike are equal, so a result that
is stored in maps can be compared without looking at the order in which the
maps were filled.  Ordered sets are Mathlib's `Finset`s.
-/

namespace SharedContext

/-- A finite map from `κ` to `ν`.  The key set is determined by the lookup
function, which makes equality of maps extensional. -/
structure BTreeMap (κ ν : Type*) where
  keys : Finset κ
  get? : κ → Option ν
  mem_keys : ∀ key, key ∈ keys ↔ (get? key).isSome

namespace BTreeMap

variable {κ ν μ δ : Type*}

@[ext]
theorem ext {first second : BTreeMap κ ν}
    (lookups : ∀ key, first.get? key = second.get? key) : first = second := by
  have keysEq : first.keys = second.keys := by
    ext key
    rw [first.mem_keys, second.mem_keys, lookups]
  cases first
  cases second
  simp only at keysEq lookups
  obtain rfl := keysEq
  obtain rfl := funext lookups
  rfl

instance [DecidableEq κ] [DecidableEq ν] : DecidableEq (BTreeMap κ ν) :=
  fun first second =>
    decidable_of_iff
      (first.keys = second.keys ∧
        ∀ key ∈ first.keys, first.get? key = second.get? key) <| by
      constructor
      · rintro ⟨keysEq, lookups⟩
        ext1 key
        by_cases member : key ∈ first.keys
        · exact lookups key member
        · have absent := member
          rw [keysEq] at absent
          rw [first.mem_keys, Option.not_isSome_iff_eq_none] at member
          rw [second.mem_keys, Option.not_isSome_iff_eq_none] at absent
          rw [member, absent]
      · rintro rfl
        exact ⟨rfl, fun _ _ => rfl⟩

theorem mem_keys_iff {map : BTreeMap κ ν} {key : κ} :
    key ∈ map.keys ↔ ∃ value, map.get? key = some value := by
  rw [map.mem_keys, Option.isSome_iff_exists]

theorem mem_keys_of_get? {map : BTreeMap κ ν} {key : κ} {value : ν}
    (found : map.get? key = some value) : key ∈ map.keys :=
  mem_keys_iff.mpr ⟨value, found⟩

theorem not_mem_keys_iff {map : BTreeMap κ ν} {key : κ} :
    key ∉ map.keys ↔ map.get? key = none := by
  rw [map.mem_keys, Option.not_isSome_iff_eq_none]

/-- In a map whose entries all agree with a base map, an entry of the base map
is present as soon as its key is. -/
theorem get?_of_mem_keys {map base : BTreeMap κ ν}
    (agrees : ∀ key value, map.get? key = some value → base.get? key = some value)
    {key : κ} {value : ν} (found : base.get? key = some value) (member : key ∈ map.keys) :
    map.get? key = some value := by
  obtain ⟨other, lookup⟩ := mem_keys_iff.mp member
  rw [lookup, ← agrees key other lookup, found]

/-- The map with no entries. -/
def empty : BTreeMap κ ν where
  keys := ∅
  get? _ := none
  mem_keys := by simp

@[simp]
theorem get?_empty (key : κ) : (empty : BTreeMap κ ν).get? key = none :=
  rfl

/-- The map that answers `entry key` for the listed keys where that is a value. -/
def ofKeys [DecidableEq κ] (keys : Finset κ) (entry : κ → Option ν) : BTreeMap κ ν where
  keys := keys.filter fun key => (entry key).isSome
  get? key := if key ∈ keys then entry key else none
  mem_keys key := by
    by_cases member : key ∈ keys <;> simp [member]

theorem get?_ofKeys [DecidableEq κ] (keys : Finset κ) (entry : κ → Option ν) (key : κ) :
    (ofKeys keys entry).get? key = if key ∈ keys then entry key else none :=
  rfl

@[simp]
theorem get?_ofKeys_eq_some [DecidableEq κ] {keys : Finset κ} {entry : κ → Option ν}
    {key : κ} {value : ν} :
    (ofKeys keys entry).get? key = some value ↔
      key ∈ keys ∧ entry key = some value := by
  rw [get?_ofKeys]
  split <;> simp [*]

/-- Keep the entries to which `step` gives a value, with that value. -/
def filterMap [DecidableEq κ] (map : BTreeMap κ ν) (step : κ → ν → Option μ) :
    BTreeMap κ μ :=
  ofKeys map.keys fun key => (map.get? key).bind (step key)

@[simp]
theorem get?_filterMap [DecidableEq κ] (map : BTreeMap κ ν) (step : κ → ν → Option μ)
    (key : κ) :
    (map.filterMap step).get? key = (map.get? key).bind (step key) := by
  rw [filterMap, get?_ofKeys]
  split
  · rfl
  · rename_i absent
    rw [not_mem_keys_iff.mp absent, Option.bind_none]

/-- Keep the entries that satisfy `keep`. -/
def filter [DecidableEq κ] (map : BTreeMap κ ν) (keep : κ → ν → Prop)
    [∀ key value, Decidable (keep key value)] : BTreeMap κ ν :=
  map.filterMap fun key value => if keep key value then some value else none

@[simp]
theorem get?_filter_eq_some [DecidableEq κ] {map : BTreeMap κ ν} {keep : κ → ν → Prop}
    [∀ key value, Decidable (keep key value)] {key : κ} {value : ν} :
    (map.filter keep).get? key = some value ↔
      map.get? key = some value ∧ keep key value := by
  simp only [filter, get?_filterMap, Option.bind_eq_some_iff,
    Option.ite_none_right_eq_some, Option.some.injEq]
  constructor
  · rintro ⟨kept, found, holds, rfl⟩
    exact ⟨found, holds⟩
  · rintro ⟨found, holds⟩
    exact ⟨value, found, holds, rfl⟩

def map [DecidableEq κ] (table : BTreeMap κ ν) (update : ν → μ) : BTreeMap κ μ :=
  table.filterMap fun _ value => some (update value)

@[simp]
theorem get?_map [DecidableEq κ] (table : BTreeMap κ ν) (update : ν → μ) (key : κ) :
    (table.map update).get? key = (table.get? key).map update := by
  simp only [map, get?_filterMap]
  cases table.get? key <;> rfl

theorem keys_map [DecidableEq κ] (table : BTreeMap κ ν) (update : ν → μ) :
    (table.map update).keys = table.keys := by
  ext key
  rw [BTreeMap.mem_keys, BTreeMap.mem_keys, get?_map, Option.isSome_map]

def insert [DecidableEq κ] (table : BTreeMap κ ν) (key : κ) (value : ν) : BTreeMap κ ν :=
  ofKeys (Insert.insert key table.keys) fun other =>
    if other = key then some value else table.get? other

@[simp]
theorem get?_insert [DecidableEq κ] (table : BTreeMap κ ν) (key other : κ) (value : ν) :
    (table.insert key value).get? other =
      if other = key then some value else table.get? other := by
  rw [insert, get?_ofKeys]
  by_cases same : other = key
  · simp [same]
  · by_cases member : other ∈ table.keys
    · simp [same, member]
    · simp [same, member, not_mem_keys_iff.mp member]

/-- Add the entries of another map, which win where both have one. -/
def extend [DecidableEq κ] (table other : BTreeMap κ ν) : BTreeMap κ ν :=
  ofKeys (table.keys ∪ other.keys) fun key => (other.get? key).or (table.get? key)

@[simp]
theorem get?_extend [DecidableEq κ] (table other : BTreeMap κ ν) (key : κ) :
    (table.extend other).get? key = (other.get? key).or (table.get? key) := by
  rw [extend, get?_ofKeys]
  split
  · rfl
  · rename_i absent
    rw [Finset.mem_union, not_or] at absent
    rw [not_mem_keys_iff.mp absent.1, not_mem_keys_iff.mp absent.2]
    rfl

/-- The map itself unless it has no entries. -/
def nonempty? [DecidableEq κ] (table : BTreeMap κ ν) : Option (BTreeMap κ ν) :=
  if table.keys = ∅ then none else some table

theorem nonempty?_eq_some [DecidableEq κ] {table other : BTreeMap κ ν} :
    table.nonempty? = some other ↔
      table = other ∧ ∃ key value, table.get? key = some value := by
  rw [nonempty?]
  split
  · rename_i isEmpty
    constructor
    · exact fun impossible => by cases impossible
    · rintro ⟨-, key, value, found⟩
      have member := mem_keys_of_get? found
      simp [isEmpty] at member
  · rename_i notEmpty
    obtain ⟨key, member⟩ := Finset.nonempty_iff_ne_empty.mpr notEmpty
    obtain ⟨value, found⟩ := mem_keys_iff.mp member
    constructor
    · intro same
      exact ⟨Option.some.inj same, key, value, found⟩
    · rintro ⟨rfl, -⟩
      rfl

/-- The union of one finite set for every entry. -/
def flatMap [DecidableEq δ] (map : BTreeMap κ ν) (collect : κ → ν → Finset δ) : Finset δ :=
  map.keys.biUnion fun key => (map.get? key).elim ∅ (collect key)

@[simp]
theorem mem_flatMap [DecidableEq δ] {map : BTreeMap κ ν} {collect : κ → ν → Finset δ}
    {item : δ} :
    item ∈ map.flatMap collect ↔
      ∃ key value, map.get? key = some value ∧ item ∈ collect key value := by
  rw [flatMap, Finset.mem_biUnion]
  constructor
  · rintro ⟨key, member, found⟩
    obtain ⟨value, lookup⟩ := mem_keys_iff.mp member
    rw [lookup, Option.elim_some] at found
    exact ⟨key, value, lookup, found⟩
  · rintro ⟨key, value, lookup, found⟩
    refine ⟨key, mem_keys_of_get? lookup, ?_⟩
    rw [lookup, Option.elim_some]
    exact found

/-- Whether some entry satisfies `holds`. -/
def Any (map : BTreeMap κ ν) (holds : κ → ν → Prop) : Prop :=
  ∃ key ∈ map.keys, ∃ value ∈ map.get? key, holds key value

instance (map : BTreeMap κ ν) (holds : κ → ν → Prop)
    [∀ key value, Decidable (holds key value)] : Decidable (map.Any holds) :=
  inferInstanceAs (Decidable (∃ key ∈ map.keys, ∃ value ∈ map.get? key, holds key value))

theorem any_iff {map : BTreeMap κ ν} {holds : κ → ν → Prop} :
    map.Any holds ↔ ∃ key value, map.get? key = some value ∧ holds key value := by
  constructor
  · rintro ⟨key, -, value, found, satisfied⟩
    exact ⟨key, value, found, satisfied⟩
  · rintro ⟨key, value, found, satisfied⟩
    exact ⟨key, mem_keys_of_get? found, value, found, satisfied⟩

section Listing

variable [LinearOrder κ]

/-- The elements of a set in order.  `Finset.sort` does not reduce in the kernel. -/
def ordered (set : Finset κ) : List κ :=
  Quot.liftOn set.val (List.insertionSort (· ≤ ·)) fun _ _ permuted =>
    List.Perm.eq_of_pairwise' (List.pairwise_insertionSort _ _)
      (List.pairwise_insertionSort _ _)
      (((List.perm_insertionSort _ _).trans permuted).trans (List.perm_insertionSort _ _).symm)

theorem ordered_eq_sort (set : Finset κ) : ordered set = set.sort (· ≤ ·) := by
  rcases set with ⟨⟨elements⟩, distinct⟩
  exact (List.mergeSort_eq_insertionSort (· ≤ ·) elements).symm

def values (map : BTreeMap κ ν) : List ν :=
  (ordered map.keys).filterMap map.get?

theorem mem_values {map : BTreeMap κ ν} {value : ν} :
    value ∈ map.values ↔ ∃ key, map.get? key = some value := by
  rw [values, ordered_eq_sort, List.mem_filterMap]
  constructor
  · rintro ⟨key, -, found⟩
    exact ⟨key, found⟩
  · rintro ⟨key, found⟩
    exact ⟨key, (Finset.mem_sort _).mpr (mem_keys_of_get? found), found⟩

/-- Values that tell their keys are listed once each. -/
theorem nodup_map_values {map : BTreeMap κ ν} {keyOf : ν → κ}
    (tells : ∀ key value, map.get? key = some value → keyOf value = key) :
    (map.values.map keyOf).Nodup := by
  have areKeys : map.values.map keyOf = map.keys.sort (· ≤ ·) := by
    rw [values, ordered_eq_sort, List.map_filterMap]
    have isKey : ∀ key ∈ map.keys.sort (· ≤ ·), (map.get? key).map keyOf = some key := by
      intro key member
      obtain ⟨value, found⟩ := mem_keys_iff.mp ((Finset.mem_sort _).mp member)
      rw [found, Option.map_some, tells key value found]
    rw [List.filterMap_congr isKey, List.filterMap_some]
  rw [areKeys]
  exact Finset.sort_nodup _ _

end Listing

section Rekeying

variable {κ' : Type*} [LinearOrder κ] [DecidableEq κ']

/-- Collect the values under new keys; of several values with one new key the
one with the greatest old key stays, as it is inserted last. -/
def rekey (map : BTreeMap κ ν) (newKey : ν → κ') : BTreeMap κ' ν :=
  ofKeys (map.flatMap fun _ value => {newKey value}) fun key =>
    (map.filter fun _ value => newKey value = key).keys.max.bind map.get?

/-- When the new keys are pairwise different, nothing is overwritten. -/
theorem get?_rekey_eq_some {map : BTreeMap κ ν} {newKey : ν → κ'}
    (distinct : ∀ first second left right, map.get? first = some left →
      map.get? second = some right → newKey left = newKey right → first = second)
    {key : κ'} {value : ν} :
    (map.rekey newKey).get? key = some value ↔
      ∃ old, map.get? old = some value ∧ newKey value = key := by
  rw [rekey, get?_ofKeys_eq_some]
  constructor
  · rintro ⟨-, selected⟩
    obtain ⟨old, isMax, found⟩ := Option.bind_eq_some_iff.mp selected
    have member := Finset.mem_of_max isMax
    obtain ⟨kept, lookup⟩ := mem_keys_iff.mp member
    obtain ⟨lookup, matching⟩ := get?_filter_eq_some.mp lookup
    rw [found] at lookup
    obtain rfl := Option.some.inj lookup
    exact ⟨old, found, matching⟩
  · rintro ⟨old, found, rfl⟩
    refine ⟨mem_flatMap.mpr ⟨old, value, found, Finset.mem_singleton_self _⟩, ?_⟩
    have member : old ∈ (map.filter fun _ other => newKey other = newKey value).keys :=
      mem_keys_of_get? (get?_filter_eq_some.mpr ⟨found, rfl⟩)
    obtain ⟨greatest, isMax⟩ := Finset.max_of_mem member
    obtain ⟨other, lookup⟩ := mem_keys_iff.mp (Finset.mem_of_max isMax)
    obtain ⟨lookup, matching⟩ := get?_filter_eq_some.mp lookup
    obtain rfl := distinct _ _ _ _ lookup found matching
    rw [isMax]
    exact found

end Rekeying

section Grouping

variable [DecidableEq κ]

/-- The values a list of pairs lists under one key, in order. -/
def listed (entries : List (κ × ν)) (key : κ) : List ν :=
  (entries.filter fun entry => entry.1 = key).map Prod.snd

/-- Append a value to the list stored under its key, starting from no list. -/
def push (table : BTreeMap κ (List ν)) (entry : κ × ν) : BTreeMap κ (List ν) :=
  table.insert entry.1 ((table.get? entry.1).getD [] ++ [entry.2])

/-- Group a list of pairs by key: one `push` for every pair, from left to right. -/
def group (entries : List (κ × ν)) : BTreeMap κ (List ν) :=
  entries.foldl push empty

theorem getD_get?_foldl_push (entries : List (κ × ν)) (table : BTreeMap κ (List ν))
    (key : κ) :
    ((entries.foldl push table).get? key).getD [] =
      (table.get? key).getD [] ++ listed entries key := by
  induction entries generalizing table with
  | nil => simp [listed]
  | cons entry entries ih =>
      rw [List.foldl_cons, ih, push, get?_insert]
      by_cases same : key = entry.1
      · simp [listed, same]
      · simp [listed, same, Ne.symm same]

theorem get?_foldl_push_ne_nil (entries : List (κ × ν)) (table : BTreeMap κ (List ν))
    (nonempty : ∀ key, table.get? key ≠ some []) (key : κ) :
    (entries.foldl push table).get? key ≠ some [] := by
  induction entries generalizing table with
  | nil => exact nonempty key
  | cons entry entries ih =>
      rw [List.foldl_cons]
      apply ih
      intro other
      rw [push, get?_insert]
      split
      · simp
      · exact nonempty other

theorem getD_get?_group (entries : List (κ × ν)) (key : κ) :
    ((group entries).get? key).getD [] = listed entries key := by
  rw [group, getD_get?_foldl_push]
  simp

/-- A group is the non-empty list of the values listed under its key. -/
theorem get?_group_eq_some {entries : List (κ × ν)} {key : κ} {values : List ν} :
    (group entries).get? key = some values ↔
      values ≠ [] ∧ listed entries key = values := by
  have nonempty := get?_foldl_push_ne_nil entries empty (by simp) key
  rw [← getD_get?_group]
  rw [← group] at nonempty
  cases lookup : (group entries).get? key with
  | none =>
      simp only [Option.getD_none]
      constructor
      · exact fun impossible => by cases impossible
      · rintro ⟨notNil, rfl⟩
        exact absurd rfl notNil
  | some found =>
      rw [lookup] at nonempty
      simp only [Option.getD_some, Option.some.injEq]
      constructor
      · rintro rfl
        exact ⟨fun isNil => nonempty (by rw [isNil]), rfl⟩
      · exact fun equal => equal.2

/-- The entries whose group has exactly one value, with that value. -/
def unique (table : BTreeMap κ (List ν)) : BTreeMap κ ν :=
  table.filterMap fun _ values =>
    match values with
    | [value] => some value
    | _ => none

theorem get?_unique_eq_some {table : BTreeMap κ (List ν)} {key : κ} {value : ν} :
    table.unique.get? key = some value ↔ table.get? key = some [value] := by
  rw [unique, get?_filterMap]
  constructor
  · intro found
    obtain ⟨values, lookup, selected⟩ := Option.bind_eq_some_iff.mp found
    rw [lookup]
    match values, selected with
    | [_], selected => rw [Option.some.inj selected]
  · intro lookup
    rw [lookup]
    rfl

@[simp]
theorem get?_unique_group_eq_some {entries : List (κ × ν)} {key : κ} {value : ν} :
    (group entries).unique.get? key = some value ↔ listed entries key = [value] := by
  rw [get?_unique_eq_some, get?_group_eq_some]
  simp

end Grouping

section Permutation

/-- Two tables of lists with the same keys whose lists are permutations. -/
def SameGroups (first second : BTreeMap κ (List ν)) : Prop :=
  ∀ key, Option.Rel List.Perm (first.get? key) (second.get? key)

variable {first second : BTreeMap κ (List ν)}

theorem SameGroups.symm (same : SameGroups first second) : SameGroups second first := by
  intro key
  have related := same key
  revert related
  cases first.get? key <;> cases second.get? key <;> intro related <;> cases related
  · exact .none
  · rename_i permuted
    exact .some permuted.symm

theorem SameGroups.exists_right (same : SameGroups first second) {key : κ} {values : List ν}
    (found : first.get? key = some values) :
    ∃ others, second.get? key = some others ∧ values.Perm others := by
  have related := same key
  rw [found] at related
  cases lookup : second.get? key with
  | none =>
      rw [lookup] at related
      cases related
  | some others =>
      rw [lookup] at related
      cases related with
      | some permuted => exact ⟨others, rfl, permuted⟩

theorem SameGroups.keys_eq (same : SameGroups first second) : first.keys = second.keys := by
  ext key
  rw [mem_keys_iff, mem_keys_iff]
  constructor
  · rintro ⟨values, found⟩
    obtain ⟨others, lookup, -⟩ := same.exists_right found
    exact ⟨others, lookup⟩
  · rintro ⟨values, found⟩
    obtain ⟨others, lookup, -⟩ := same.symm.exists_right found
    exact ⟨others, lookup⟩

theorem SameGroups.flatMap_eq [DecidableEq δ] (same : SameGroups first second)
    {each : κ → List ν → Finset δ}
    (invariant : ∀ key values others, values.Perm others → each key values = each key others) :
    first.flatMap each = second.flatMap each := by
  have oneWay : ∀ {left right : BTreeMap κ (List ν)}, SameGroups left right →
      left.flatMap each ⊆ right.flatMap each := by
    intro left right related item member
    obtain ⟨key, values, found, inEach⟩ := mem_flatMap.mp member
    obtain ⟨others, lookup, permuted⟩ := related.exists_right found
    exact mem_flatMap.mpr ⟨key, others, lookup, invariant key values others permuted ▸ inEach⟩
  exact Finset.Subset.antisymm (oneWay same) (oneWay same.symm)

variable [DecidableEq κ]

theorem SameGroups.filterMap_eq (same : SameGroups first second)
    {step : κ → List ν → Option μ}
    (invariant : ∀ key values others, values.Perm others → step key values = step key others) :
    first.filterMap step = second.filterMap step := by
  ext1 key
  simp only [get?_filterMap]
  have related := same key
  revert related
  cases first.get? key <;> cases second.get? key <;> intro related <;> cases related
  · rfl
  · rename_i permuted
    exact invariant key _ _ permuted

theorem SameGroups.map_eq (same : SameGroups first second) {update : List ν → μ}
    (invariant : ∀ values others, values.Perm others → update values = update others) :
    first.map update = second.map update := by
  apply same.filterMap_eq
  intro key values others permuted
  rw [invariant values others permuted]

theorem SameGroups.filter (same : SameGroups first second) {keep : κ → List ν → Prop}
    [∀ key values, Decidable (keep key values)]
    (invariant : ∀ key values others, values.Perm others → (keep key values ↔ keep key others)) :
    SameGroups (first.filter keep) (second.filter keep) := by
  intro key
  simp only [BTreeMap.filter, get?_filterMap]
  have related := same key
  revert related
  cases first.get? key <;> cases second.get? key <;> intro related <;> cases related
  · exact .none
  · rename_i values others permuted
    simp only [Option.bind_some, invariant key values others permuted]
    split
    · exact .some permuted
    · exact .none

theorem SameGroups.unique_eq (same : SameGroups first second) : first.unique = second.unique := by
  have oneWay : ∀ {left right : BTreeMap κ (List ν)} {key : κ} {value : ν},
      SameGroups left right → left.unique.get? key = some value →
        right.unique.get? key = some value := by
    intro left right key value related found
    obtain ⟨others, lookup, permuted⟩ := related.exists_right (get?_unique_eq_some.mp found)
    rw [List.singleton_perm] at permuted
    exact get?_unique_eq_some.mpr (permuted ▸ lookup)
  ext1 key
  apply Option.ext
  intro value
  exact ⟨oneWay same, oneWay same.symm⟩

theorem listed_perm {entries others : List (κ × ν)} (permuted : entries.Perm others) (key : κ) :
    (listed entries key).Perm (listed others key) :=
  (permuted.filter _).map _

/-- Grouping forgets the order of the entries up to the order inside a group. -/
theorem sameGroups_group {entries others : List (κ × ν)} (permuted : entries.Perm others) :
    SameGroups (group entries) (group others) := by
  intro key
  have inGroup := listed_perm permuted key
  cases left : (group entries).get? key with
  | some values =>
      obtain ⟨notNil, isListed⟩ := get?_group_eq_some.mp left
      have found : (group others).get? key = some (listed others key) := by
        refine get?_group_eq_some.mpr ⟨fun isNil => notNil ?_, rfl⟩
        rw [isNil, isListed] at inGroup
        exact inGroup.eq_nil
      rw [found]
      exact .some (isListed ▸ inGroup)
  | none =>
      cases right : (group others).get? key with
      | none => exact .none
      | some values =>
          obtain ⟨notNil, isListed⟩ := get?_group_eq_some.mp right
          have isNil := getD_get?_group entries key
          rw [left, Option.getD_none] at isNil
          rw [← isNil, isListed] at inGroup
          exact absurd inGroup.symm.eq_nil notNil

end Permutation

end BTreeMap

section Sets

variable {α δ : Type*}

/-- The union of one finite set for every item of a list. -/
def collect [DecidableEq δ] (items : List α) (each : α → Finset δ) : Finset δ :=
  items.foldr (fun item rest => each item ∪ rest) ∅

@[simp]
theorem mem_collect [DecidableEq δ] {items : List α} {each : α → Finset δ} {value : δ} :
    value ∈ collect items each ↔ ∃ item ∈ items, value ∈ each item := by
  induction items with
  | nil => simp [collect]
  | cons item items ih =>
      rw [collect, List.foldr_cons, Finset.mem_union, ← collect, ih, List.exists_mem_cons_iff]

variable [LinearOrder α]

/-- The least element of a set, `BTreeSet::first`. -/
def first? (set : Finset α) : Option α :=
  set.min

theorem mem_of_first? {set : Finset α} {item : α} (found : first? set = some item) :
    item ∈ set :=
  Finset.mem_of_min found

/-- The element of a set that has exactly one. -/
def sole? (set : Finset α) : Option α :=
  if set.card = 1 then first? set else none

@[simp]
theorem sole?_eq_some {set : Finset α} {item : α} :
    sole? set = some item ↔ set = {item} := by
  rw [sole?]
  constructor
  · intro found
    split at found
    · rename_i isOne
      obtain ⟨only, rfl⟩ := Finset.card_eq_one.mp isOne
      rw [Finset.mem_singleton.mp (mem_of_first? found)]
    · cases found
  · rintro rfl
    rw [if_pos (Finset.card_singleton item)]
    exact Finset.min_singleton

end Sets

end SharedContext
