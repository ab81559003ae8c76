import SharedContext.LogService.HookDiagnostics

/-!
# What the hourly buckets hold

The buckets hold the decisions of the hours inside the window, each hour in its
own bucket.  They keep doing so when a decision is counted and when the window
moves on, as long as there is room for the decision and for its hour.
-/

namespace SharedContext.LogService

open Telemetry

def countTotal (counts : List BucketCount) : Nat :=
  (counts.map BucketCount.count).sum

def hourlyTotal (hourly : List HourlyBucket) : Nat :=
  (hourly.map fun bucket => countTotal bucket.counts).sum

def hours (hourly : List HourlyBucket) : List Int :=
  hourly.map HourlyBucket.hourUnixMs

/-! ### Counting in a bucket -/

/-- A decision can be counted in a bucket: under its reason, in a new entry or under "other". -/
def KeyRoom (decision : Outcome) (reason : String) (counts : List BucketCount) : Prop :=
  counts.any (BucketCount.isFor decision reason) = true ∨ counts.length < maxKeysPerBucket ∨
    counts.any (BucketCount.isFor decision "other") = true

instance (decision : Outcome) (reason : String) (counts : List BucketCount) :
    Decidable (KeyRoom decision reason counts) :=
  inferInstanceAs (Decidable (_ ∨ _ ∨ _))

@[simp]
theorem length_countFirst (asked : BucketCount → Bool) (counts : List BucketCount) :
    (countFirst asked counts).length = counts.length := by
  induction counts with
  | nil => rfl
  | cons item rest ih =>
      rw [countFirst]
      split <;> simp [ih]

theorem length_countDecision {counts : List BucketCount}
    (bounded : counts.length ≤ maxKeysPerBucket) (decision : Outcome) (reason : String) :
    (countDecision decision reason counts).length ≤ maxKeysPerBucket := by
  unfold countDecision
  split
  · rw [length_countFirst]
    exact bounded
  · split
    · rw [List.length_append, List.length_singleton]
      omega
    · rw [length_countFirst]
      exact bounded

theorem countTotal_countFirst {asked : BucketCount → Bool} {counts : List BucketCount}
    (found : counts.any asked = true) (small : countTotal counts < u64Max) :
    countTotal (countFirst asked counts) = countTotal counts + 1 := by
  induction counts with
  | nil => simp at found
  | cons item rest ih =>
      have total : countTotal (item :: rest) = item.count + countTotal rest := rfl
      rw [total] at small ⊢
      rw [countFirst]
      split
      · have fits : saturateU64 (item.count + 1) = item.count + 1 := Nat.min_eq_left (by omega)
        have changed : countTotal ({ item with count := saturateU64 (item.count + 1) } :: rest) =
            saturateU64 (item.count + 1) + countTotal rest := rfl
        rw [changed, fits]
        omega
      · rename_i other
        have later : rest.any asked = true := by
          rw [List.any_cons, Bool.or_eq_true] at found
          exact found.resolve_left other
        have behind : countTotal (item :: countFirst asked rest) =
            item.count + countTotal (countFirst asked rest) := rfl
        rw [behind, ih later (by omega)]
        omega

theorem countTotal_countDecision {decision : Outcome} {reason : String}
    {counts : List BucketCount} (room : KeyRoom decision reason counts)
    (small : countTotal counts < u64Max) :
    countTotal (countDecision decision reason counts) = countTotal counts + 1 := by
  unfold countDecision
  split
  · rename_i found
    exact countTotal_countFirst found small
  · rename_i missing
    split
    · simp [countTotal]
    · rename_i full
      exact countTotal_countFirst ((room.resolve_left missing).resolve_left full) small

/-! ### The bucket of an hour -/

/-- The counts of the bucket of an hour, none if it is not open. -/
def bucketCounts (hour : Int) (hourly : List HourlyBucket) : List BucketCount :=
  ((hourly.find? fun bucket => bucket.hourUnixMs = hour).map HourlyBucket.counts).getD []

def openHours (hour : Int) (opened_ : List Int) : List Int :=
  if hour ∈ opened_ then opened_ else opened_ ++ [hour]

theorem hours_updateBucket (hour : Int) (update : List BucketCount → List BucketCount)
    (hourly : List HourlyBucket) :
    hours (updateBucket hour update hourly) = openHours hour (hours hourly) := by
  induction hourly with
  | nil => rfl
  | cons bucket rest ih =>
      have opened : hours (bucket :: rest) = bucket.hourUnixMs :: hours rest := rfl
      rw [updateBucket, opened]
      by_cases same : bucket.hourUnixMs = hour
      · rw [if_pos same, openHours, if_pos (by simp [same])]
        rfl
      · have behind : hours (bucket :: updateBucket hour update rest) =
            bucket.hourUnixMs :: hours (updateBucket hour update rest) := rfl
        rw [if_neg same, behind, ih, openHours, openHours]
        by_cases member : hour ∈ hours rest
        · rw [if_pos member, if_pos (List.mem_cons_of_mem _ member)]
        · rw [if_neg member, if_neg (by simp [member, Ne.symm same])]
          rfl

theorem mem_updateBucket {hour : Int} {update : List BucketCount → List BucketCount}
    {hourly : List HourlyBucket} (distinct : (hours hourly).Nodup) {bucket : HourlyBucket}
    (member : bucket ∈ updateBucket hour update hourly) :
    (bucket ∈ hourly ∧ bucket.hourUnixMs ≠ hour) ∨
      (bucket.hourUnixMs = hour ∧ bucket.counts = update (bucketCounts hour hourly)) := by
  induction hourly with
  | nil =>
      rw [updateBucket, List.mem_singleton] at member
      subst member
      exact .inr ⟨rfl, rfl⟩
  | cons first rest ih =>
      have opened : hours (first :: rest) = first.hourUnixMs :: hours rest := rfl
      rw [opened, List.nodup_cons] at distinct
      rw [updateBucket] at member
      by_cases same : first.hourUnixMs = hour
      · rw [if_pos same, List.mem_cons] at member
        rcases member with rfl | later
        · exact .inr ⟨same, by simp [bucketCounts, same]⟩
        · refine .inl ⟨List.mem_cons_of_mem _ later, fun again => distinct.1 ?_⟩
          rw [same, ← again]
          exact List.mem_map_of_mem later
      · rw [if_neg same, List.mem_cons] at member
        rcases member with rfl | later
        · exact .inl ⟨List.mem_cons_self, same⟩
        · rcases ih distinct.2 later with ⟨kept, other⟩ | ⟨here, counts⟩
          · exact .inl ⟨List.mem_cons_of_mem _ kept, other⟩
          · refine .inr ⟨here, ?_⟩
            rw [counts, bucketCounts, bucketCounts, List.find?_cons_of_neg (by simpa using same)]

theorem exists_updateBucket {hour other : Int} {update : List BucketCount → List BucketCount}
    {hourly : List HourlyBucket} (opened_ : other = hour ∨ other ∈ hours hourly) :
    other ∈ hours (updateBucket hour update hourly) := by
  rw [hours_updateBucket, openHours]
  split
  · rcases opened_ with rfl | member
    · assumption
    · exact member
  · rw [List.mem_append, List.mem_singleton]
    exact opened_.symm

/-! ### The rolling window -/

theorem InWindow.of_later {reading now hour : Int} (later : reading ≤ now)
    (inside : InWindow now hour) (notAhead : hour ≤ saturateI64 (reading + futureSkewMs)) :
    InWindow reading hour := by
  obtain ⟨recent, -⟩ := inside
  refine ⟨?_, notAhead⟩
  unfold saturateI64 at *
  omega

theorem retainedBuckets_perm {now : Int} {hourly : List HourlyBucket}
    (room : (hourly.filter fun bucket => InWindow now bucket.hourUnixMs).length ≤ maxBuckets) :
    (retainedBuckets now hourly).Perm
      (hourly.filter fun bucket => InWindow now bucket.hourUnixMs) := by
  rw [retainedBuckets, List.take_of_length_le]
  · exact List.perm_insertionSort _ _
  · rw [List.length_insertionSort]
    exact room

theorem mem_retainedBuckets {now : Int} {hourly : List HourlyBucket}
    (room : (hourly.filter fun bucket => InWindow now bucket.hourUnixMs).length ≤ maxBuckets)
    {bucket : HourlyBucket} :
    bucket ∈ retainedBuckets now hourly ↔ bucket ∈ hourly ∧ InWindow now bucket.hourUnixMs := by
  rw [(retainedBuckets_perm room).mem_iff, List.mem_filter, decide_eq_true_iff]

theorem retainedBuckets_subset {now : Int} {hourly : List HourlyBucket} {bucket : HourlyBucket}
    (member : bucket ∈ retainedBuckets now hourly) :
    bucket ∈ hourly ∧ InWindow now bucket.hourUnixMs := by
  have sorted := List.mem_of_mem_take member
  rw [List.mem_insertionSort, List.mem_filter, decide_eq_true_iff] at sorted
  exact sorted

/-- The buckets hold the decisions that were recorded: those of every hour that is open, and every
hour inside the window at a reading of the clock is open. -/
structure Holds (hourly : List HourlyBucket) (recorded : List Int) (reading : Int) : Prop where
  distinct : (hours hourly).Nodup
  counted : ∀ bucket ∈ hourly, countTotal bucket.counts = recorded.count bucket.hourUnixMs
  kept : ∀ hour ∈ recorded, InWindow reading hour → hour ∈ hours hourly
  notAhead : ∀ hour ∈ recorded, hour ≤ saturateI64 (reading + futureSkewMs)

theorem Holds.nil (reading : Int) : Holds [] [] reading := by
  constructor <;> simp [hours]

theorem Holds.forward {hourly : List HourlyBucket} {recorded : List Int} {reading now : Int}
    (holds : Holds hourly recorded reading) (later : reading ≤ now) :
    Holds hourly recorded now where
  distinct := holds.distinct
  counted := holds.counted
  kept hour member inside :=
    holds.kept hour member (inside.of_later later (holds.notAhead hour member))
  notAhead hour member := by
    have before := holds.notAhead hour member
    unfold saturateI64 at *
    omega

theorem Holds.update {hourly : List HourlyBucket} {recorded : List Int} {now hour : Int}
    {update : List BucketCount → List BucketCount} (holds : Holds hourly recorded now)
    (inside : InWindow now hour)
    (counts : countTotal (update (bucketCounts hour hourly)) =
      countTotal (bucketCounts hour hourly) + 1) :
    Holds (updateBucket hour update hourly) (recorded ++ [hour]) now where
  distinct := by
    rw [hours_updateBucket, openHours]
    split
    · exact holds.distinct
    · rename_i missing
      exact List.nodup_append.mpr ⟨holds.distinct, by simp, by
        intro first member second other same
        rw [List.mem_singleton] at other
        exact missing (other ▸ same ▸ member)⟩
  counted bucket member := by
    rw [List.count_append, List.count_singleton]
    rcases mem_updateBucket holds.distinct member with ⟨kept, other⟩ | ⟨here, changed⟩
    · rw [holds.counted bucket kept, if_neg (by simpa using Ne.symm other)]
      rfl
    · rw [changed, counts, here, if_pos (by simp), bucketCounts]
      cases found : hourly.find? fun bucket => bucket.hourUnixMs = hour with
      | some stored =>
          have isFor : stored.hourUnixMs = hour := by simpa using List.find?_some found
          rw [Option.map_some, Option.getD_some,
            holds.counted stored (List.mem_of_find?_eq_some found), isFor]
      | none =>
          have absent : hour ∉ recorded := by
            intro earlier
            obtain ⟨stored, member, isFor⟩ := List.mem_map.mp (holds.kept hour earlier inside)
            have missing := List.find?_eq_none.mp found stored member
            simp [isFor] at missing
          rw [List.count_eq_zero.mpr absent]
          rfl
  kept other member within := by
    refine exists_updateBucket ?_
    rw [List.mem_append, List.mem_singleton] at member
    exact member.symm.imp id fun earlier => holds.kept other earlier within
  notAhead other member := by
    rw [List.mem_append, List.mem_singleton] at member
    rcases member with earlier | rfl
    · exact holds.notAhead other earlier
    · exact inside.2

theorem Holds.retained {hourly : List HourlyBucket} {recorded : List Int} {now : Int}
    (holds : Holds hourly recorded now)
    (room : (hourly.filter fun bucket => InWindow now bucket.hourUnixMs).length ≤ maxBuckets) :
    Holds (retainedBuckets now hourly) recorded now where
  distinct := by
    have permuted := (retainedBuckets_perm room).map HourlyBucket.hourUnixMs
    exact permuted.nodup_iff.mpr (holds.distinct.sublist (List.filter_sublist.map _))
  counted bucket member := holds.counted bucket (retainedBuckets_subset member).1
  kept hour member inside := by
    obtain ⟨bucket, opened_, isFor⟩ := List.mem_map.mp (holds.kept hour member inside)
    exact List.mem_map.mpr ⟨bucket, (mem_retainedBuckets room).mpr ⟨opened_, isFor ▸ inside⟩, isFor⟩
  notAhead := holds.notAhead

theorem sum_count_eq_countP {keys items : List Int} (distinct : keys.Nodup) :
    (keys.map fun key => items.count key).sum = items.countP (· ∈ keys) := by
  induction keys with
  | nil => simp
  | cons key keys ih =>
      rw [List.nodup_cons] at distinct
      rw [List.map_cons, List.sum_cons, ih distinct.2]
      clear ih
      induction items with
      | nil => rfl
      | cons item items step =>
          simp only [List.mem_cons, List.count_cons, List.countP_cons] at step ⊢
          by_cases same : item = key
          · subst same
            simp only [distinct.1, beq_self_eq_true, true_or, decide_true, decide_false, if_true,
              Bool.false_eq_true, if_false]
            omega
          · have other : (item == key) = false := by simpa using same
            simp only [other, same, false_or, Bool.false_eq_true, if_false]
            omega

theorem Holds.total {hourly : List HourlyBucket} {recorded : List Int} {reading : Int}
    (holds : Holds hourly recorded reading)
    (within : ∀ bucket ∈ hourly, InWindow reading bucket.hourUnixMs) :
    hourlyTotal hourly = recorded.countP fun hour => InWindow reading hour := by
  have counts : hourlyTotal hourly = ((hours hourly).map fun hour => recorded.count hour).sum := by
    rw [hourlyTotal, hours, List.map_map]
    exact congrArg List.sum (List.map_congr_left fun bucket member => holds.counted bucket member)
  rw [counts, sum_count_eq_countP holds.distinct]
  refine List.countP_congr fun hour member => ?_
  rw [decide_eq_true_iff, decide_eq_true_iff]
  constructor
  · intro opened_
    obtain ⟨bucket, stored, rfl⟩ := List.mem_map.mp opened_
    exact within bucket stored
  · exact holds.kept hour member

/-! ### The rebuilt counts -/

theorem sumValues_countsOf {hourly : List HourlyBucket} (small : hourlyTotal hourly ≤ u64Max) :
    (countsOf hourly).sumValues = hourlyTotal hourly := by
  have general : ∀ (items : List BucketCount) (table : BTreeMap ReasonKey Nat),
      table.sumValues + countTotal items ≤ u64Max →
      (items.foldl addCount table).sumValues = table.sumValues + countTotal items := by
    intro items
    induction items with
    | nil => simp [countTotal]
    | cons item items ih =>
        intro table small
        have total : countTotal (item :: items) = item.count + countTotal items := rfl
        have current := table.getD_le_sumValues (toLex (item.decision, item.reason))
        have changed := table.sumValues_upsert (toLex (item.decision, item.reason))
          fun current => saturateU64 (current + item.count)
        have fits : saturateU64
            ((table.get? (toLex (item.decision, item.reason))).getD 0 + item.count) =
              (table.get? (toLex (item.decision, item.reason))).getD 0 + item.count :=
          Nat.min_eq_left (by omega)
        rw [fits] at changed
        have added : (addCount table item).sumValues = table.sumValues + item.count := by
          unfold addCount
          omega
        rw [List.foldl_cons, ih _ (by omega), added, total, Nat.add_assoc]
  have items : countTotal (hourly.flatMap HourlyBucket.counts) = hourlyTotal hourly := by
    clear small
    induction hourly with
    | nil => rfl
    | cons bucket rest ih =>
        have split : hourlyTotal (bucket :: rest) = countTotal bucket.counts + hourlyTotal rest :=
          rfl
        rw [List.flatMap_cons, split, ← ih, countTotal, List.map_append, List.sum_append]
        rfl
  have empty : (BTreeMap.empty : BTreeMap ReasonKey Nat).sumValues = 0 := rfl
  rw [countsOf, general _ _ (by rw [items, empty]; omega), items, empty, Nat.zero_add]

end SharedContext.LogService
