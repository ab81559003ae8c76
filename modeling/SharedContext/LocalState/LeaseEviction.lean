import Mathlib.Algebra.Order.BigOperators.Group.List
import SharedContext.LocalState.SessionScope

/-!
# Eviction of leases

Eviction removes a prefix of the candidates: the entries that no longer can be
interpreted, then the leases from the oldest on, and no more of them than the
new record needs.
-/

namespace SharedContext.LocalState

variable {Content : Type} {tools : LeaseTools Content} {policy : AuthorizedSessionScopePolicy}
  {directory : LeaseDirectory Content} {target : String} {recordBytes now : Nat}

/-! ### The entries of the directory -/

theorem mem_sortedEntries {name : String} {node : EntryNode Content} :
    (name, node) ∈ sortedEntries directory ↔ directory.get? name = some node := by
  unfold sortedEntries
  rw [BTreeMap.ordered_eq_sort, List.mem_filterMap]
  constructor
  · intro ⟨other, _, isEntry⟩
    obtain ⟨found, foundEq, same⟩ := Option.map_eq_some_iff.mp isEntry
    cases same
    exact foundEq
  · intro found
    exact ⟨name, (Finset.mem_sort _).mpr (BTreeMap.mem_keys_of_get? found), by rw [found]; rfl⟩

theorem nodup_sortedEntries : (sortedEntries directory).Nodup := by
  unfold sortedEntries
  rw [BTreeMap.ordered_eq_sort]
  refine (Finset.sort_nodup _ _).filterMap ?_
  intro first second entry firstEntry secondEntry
  obtain ⟨_, _, isFirst⟩ := Option.map_eq_some_iff.mp firstEntry
  obtain ⟨_, _, isSecond⟩ := Option.map_eq_some_iff.mp secondEntry
  exact congrArg Prod.fst (isFirst.trans isSecond.symm)

def otherEntries (directory : LeaseDirectory Content) (target : String) :
    List (String × EntryNode Content) :=
  (sortedEntries directory).filter fun entry => entry.1 ≠ target

theorem mem_otherEntries {entry : String × EntryNode Content} :
    entry ∈ otherEntries directory target ↔
      directory.get? entry.1 = some entry.2 ∧ entry.1 ≠ target := by
  rw [otherEntries, List.mem_filter, decide_eq_true_eq]
  exact and_congr_left fun _ => mem_sortedEntries

theorem nodup_otherEntries : (otherEntries directory target).Nodup :=
  nodup_sortedEntries.filter _

@[simp]
theorem get?_removeEntry {name other : String} :
    (removeEntry directory name).get? other =
      if other = name then none else directory.get? other := by
  cases found : (removeEntry directory name).get? other with
  | some node =>
      obtain ⟨same, different⟩ := BTreeMap.get?_filter_eq_some.mp found
      rw [if_neg different, same]
  | none =>
      split
      · rfl
      · rename_i different
        cases same : directory.get? other with
        | none => rfl
        | some node =>
            have kept : (removeEntry directory name).get? other = some node :=
              BTreeMap.get?_filter_eq_some.mpr ⟨same, different⟩
            rw [kept] at found
            cases found

/-! ### Usage -/

theorem foldl_usage (entries : List (String × EntryNode Content)) (excluded : Option String)
    (used : ScopeUsage) (small : used.entries ≤ usizeMax ∧ used.bytes ≤ usizeMax) :
    entries.foldl (fun used (name, node) =>
        if excluded = some name then used
        else ⟨saturatingAdd used.entries 1, saturatingAdd used.bytes (node.length tools)⟩) used =
      ⟨min (used.entries + (entries.filter fun entry => excluded ≠ some entry.1).length) usizeMax,
        min (used.bytes + ((entries.filter fun entry => excluded ≠ some entry.1).map
          fun entry => entry.2.length tools).sum) usizeMax⟩ := by
  induction entries generalizing used with
  | nil =>
      obtain ⟨entries, bytes⟩ := used
      simp only at small
      simp [Nat.min_eq_left small.1, Nat.min_eq_left small.2]
  | cons entry entries ih =>
      rw [List.foldl_cons]
      by_cases isExcluded : excluded = some entry.1
      · simp only [isExcluded, if_true] at ih ⊢
        rw [ih used small]
        simp
      · simp only [isExcluded, if_false]
        rw [ih _ ⟨Nat.min_le_right _ _, Nat.min_le_right _ _⟩]
        simp only [List.filter_cons, ne_eq, isExcluded, not_false_eq_true, decide_true, if_true,
          List.length_cons, List.map_cons, List.sum_cons, saturatingAdd]
        congr 1 <;> omega

theorem usage_some : usage tools directory (some target) =
    ⟨min (otherEntries directory target).length usizeMax,
      min ((otherEntries directory target).map fun entry => entry.2.length tools).sum
        usizeMax⟩ := by
  unfold usage
  rw [foldl_usage _ _ _ ⟨Nat.zero_le _, Nat.zero_le _⟩]
  have sameTest : (fun entry : String × EntryNode Content => decide (some target ≠ some entry.1)) =
      fun entry => decide (entry.1 ≠ target) := by
    funext entry
    simp [eq_comm]
  rw [sameTest]
  simp [otherEntries]

theorem usage_none : usage tools directory none =
    ⟨min (sortedEntries directory).length usizeMax,
      min ((sortedEntries directory).map fun entry => entry.2.length tools).sum usizeMax⟩ := by
  unfold usage
  rw [foldl_usage _ _ _ ⟨Nat.zero_le _, Nat.zero_le _⟩]
  simp

/-- The record fits beside the other entries. -/
def Fits (tools : LeaseTools Content) (policy : AuthorizedSessionScopePolicy) (target : String)
    (recordBytes : Nat) (directory : LeaseDirectory Content) : Prop :=
  validateNewUsage policy (usage tools directory (some target)) true recordBytes = .ok ()

theorem fits_iff : Fits tools policy target recordBytes directory ↔
    min (otherEntries directory target).length usizeMax < policy.maxEntries ∧
      saturatingAdd (min ((otherEntries directory target).map
        fun entry => entry.2.length tools).sum usizeMax) recordBytes ≤ policy.maxTotalBytes := by
  unfold Fits validateNewUsage
  rw [Result.seq_eq_ok, Result.require_eq_ok, Result.require_eq_ok, usage_some]
  refine and_congr_left fun _ => ?_
  rw [not_and, ge_iff_le, Nat.not_le]
  exact ⟨fun room => room rfl, fun room _ => room⟩

theorem Fits.mono {smaller : LeaseDirectory Content}
    (fits : Fits tools policy target recordBytes directory)
    (fewer : ∀ name node, smaller.get? name = some node → directory.get? name = some node) :
    Fits tools policy target recordBytes smaller := by
  have subset : otherEntries smaller target ⊆ otherEntries directory target := by
    intro entry listed
    obtain ⟨found, different⟩ := mem_otherEntries.mp listed
    exact mem_otherEntries.mpr ⟨fewer _ _ found, different⟩
  obtain ⟨entries, permuted, sublist⟩ := nodup_otherEntries.subperm subset
  have lengths : (otherEntries smaller target).length ≤ (otherEntries directory target).length := by
    rw [← permuted.length_eq]
    exact sublist.length_le
  have sums : ((otherEntries smaller target).map fun entry => entry.2.length tools).sum ≤
      ((otherEntries directory target).map fun entry => entry.2.length tools).sum := by
    rw [← (permuted.map _).sum_eq]
    exact (sublist.map _).sum_le_sum fun _ _ => Nat.zero_le _
  rw [fits_iff] at fits ⊢
  unfold saturatingAdd at fits ⊢
  omega

/-! ### Removing a prefix of the candidates -/

def removeAll (directory : LeaseDirectory Content) (names : List String) : LeaseDirectory Content :=
  names.foldl removeEntry directory

@[simp]
theorem get?_removeAll {names : List String} {name : String} :
    (removeAll directory names).get? name =
      if name ∈ names then none else directory.get? name := by
  induction names generalizing directory with
  | nil => simp [removeAll]
  | cons removed names ih =>
      rw [removeAll, List.foldl_cons, ← removeAll, ih, get?_removeEntry]
      by_cases isRemoved : name = removed <;> simp [isRemoved]

/-- What eviction does with a list of candidates: it removes the shortest
prefix after which the record fits. -/
theorem evictUntilFits_spec (candidates : List EvictionCandidate) (evicted : List String) :
    ∃ count ≤ candidates.length,
      (evictUntilFits tools policy target recordBytes candidates directory evicted).2 =
        removeAll directory ((candidates.map EvictionCandidate.entryKey).take count) ∧
      (∀ fewer < count, ¬ Fits tools policy target recordBytes
        (removeAll directory ((candidates.map EvictionCandidate.entryKey).take fewer))) ∧
      ((evictUntilFits tools policy target recordBytes candidates directory evicted).1 =
          .ok (evicted ++ (candidates.map EvictionCandidate.entryKey).take count) ∧
        Fits tools policy target recordBytes
          (removeAll directory ((candidates.map EvictionCandidate.entryKey).take count)) ∨
      (∃ error, (evictUntilFits tools policy target recordBytes candidates directory evicted).1 =
          .error error) ∧
        count = candidates.length ∧ ¬ Fits tools policy target recordBytes
          (removeAll directory ((candidates.map EvictionCandidate.entryKey).take count))) := by
  induction candidates generalizing directory evicted with
  | nil =>
      refine ⟨0, Nat.le_refl 0, ?_, fun fewer shorter => absurd shorter (Nat.not_lt_zero fewer), ?_⟩
      · unfold evictUntilFits
        cases validateNewUsage policy (usage tools directory (some target)) true recordBytes <;> rfl
      · unfold evictUntilFits Fits
        simp only [List.map_nil, List.take_nil, List.append_nil, removeAll, List.foldl_nil,
          List.length_nil, true_and]
        cases validateNewUsage policy (usage tools directory (some target)) true recordBytes with
        | ok value => exact .inl ⟨rfl, rfl⟩
        | error error => exact .inr ⟨⟨error, rfl⟩, nofun⟩
  | cons candidate candidates ih =>
      cases checked : validateNewUsage policy (usage tools directory (some target)) true
        recordBytes with
      | ok value =>
          refine ⟨0, Nat.zero_le _, ?_,
            fun fewer shorter => absurd shorter (Nat.not_lt_zero fewer), .inl ⟨?_, checked⟩⟩
          · simp [evictUntilFits, checked, removeAll]
          · simp [evictUntilFits, checked]
      | error error =>
          obtain ⟨count, bounded, left, shorter, ending⟩ :=
            @ih (removeEntry directory candidate.entryKey) (evicted ++ [candidate.entryKey])
          have step : evictUntilFits tools policy target recordBytes (candidate :: candidates)
              directory evicted = evictUntilFits tools policy target recordBytes candidates
                (removeEntry directory candidate.entryKey) (evicted ++ [candidate.entryKey]) := by
            rw [evictUntilFits, checked]
          have unfit : ¬ Fits tools policy target recordBytes directory := by
            unfold Fits
            rw [checked]
            nofun
          rw [step]
          refine ⟨count + 1, Nat.succ_le_succ bounded, left, ?_, ?_⟩
          · intro fewer less
            cases fewer with
            | zero => exact unfit
            | succ fewer => exact shorter fewer (Nat.lt_of_succ_lt_succ less)
          · rw [List.append_assoc] at ending
            rcases ending with made | ⟨refused, full, never⟩
            · exact .inl made
            · exact .inr ⟨refused, by rw [full, List.length_cons], never⟩

/-! ### The candidates -/

/-- The time from which a lease counts, by what its entry holds; a lease of the
future counts as issued now, and an entry that is no lease has no such time. -/
def issueTime (tools : LeaseTools Content) (policy : AuthorizedSessionScopePolicy) (now : Nat)
    (name : String) (node : EntryNode Content) : Option Nat :=
  match readRecord tools policy name node with
  | .ok record => some (min record.issuedAtUnixSeconds now)
  | .error _ => none

theorem evictionCandidate_eq_some {entry : String × EntryNode Content}
    {candidate : EvictionCandidate} :
    evictionCandidate tools policy target now entry = .ok (some candidate) →
      entry.1 ≠ target ∧ entry.2.isSafe = true ∧
        candidate = ⟨entry.1, issueTime tools policy now entry.1 entry.2⟩ := by
  intro found
  unfold evictionCandidate at found
  split at found
  · cases found
  · rename_i offered
    simp only [not_or, Bool.not_eq_false] at offered
    refine ⟨offered.1, offered.2, ?_⟩
    unfold issueTime
    cases read : readRecord tools policy entry.1 entry.2 with
    | ok record =>
        rw [read] at found
        cases found
        rfl
    | error error =>
        rw [read] at found
        simp only at found
        split at found <;> cases found
        rfl

theorem evictionCandidate_of_safe {entry : String × EntryNode Content}
    {found : Option EvictionCandidate} (different : entry.1 ≠ target)
    (isSafe : entry.2.isSafe = true)
    (classified : evictionCandidate tools policy target now entry = .ok found) :
    found = some ⟨entry.1, issueTime tools policy now entry.1 entry.2⟩ := by
  cases found with
  | some candidate => rw [(evictionCandidate_eq_some classified).2.2]
  | none =>
      unfold evictionCandidate at classified
      rw [if_neg (by simp [different, isSafe])] at classified
      split at classified
      · cases classified
      · split at classified <;> cases classified

theorem mem_evictionCandidates {order : List EvictionCandidate}
    (ordered : evictionCandidates tools policy directory target now = .ok order)
    {candidate : EvictionCandidate} :
    candidate ∈ order ↔ ∃ node, directory.get? candidate.entryKey = some node ∧
      candidate.entryKey ≠ target ∧ node.isSafe = true ∧
        candidate.issuedAt = issueTime tools policy now candidate.entryKey node := by
  simp only [evictionCandidates, Result.bind_eq_ok, Result.pure_eq_ok] at ordered
  obtain ⟨candidates, classified, rfl⟩ := ordered
  obtain ⟨forward, backward⟩ := Result.mapM_members classified
  rw [List.mem_insertionSort, List.mem_filterMap]
  constructor
  · rintro ⟨found, listed, isCandidate⟩
    simp only [id] at isCandidate
    subst isCandidate
    obtain ⟨⟨name, node⟩, entry, offered⟩ := backward _ listed
    obtain ⟨different, isSafe, same⟩ := evictionCandidate_eq_some offered
    subst same
    exact ⟨node, mem_sortedEntries.mp entry, different, isSafe, rfl⟩
  · rintro ⟨node, found, different, isSafe, issued⟩
    obtain ⟨offered, listed, classifiedAs⟩ :=
      forward (candidate.entryKey, node) (mem_sortedEntries.mpr found)
    rw [evictionCandidate_of_safe different isSafe classifiedAs] at listed
    refine ⟨_, listed, ?_⟩
    simp only [id, ← issued]

/-! ### The order of eviction -/

theorem IssuedBefore.refl (time : Option Nat) : IssuedBefore time time := by
  cases time with
  | none => trivial
  | some seconds => exact Nat.le_refl seconds

theorem IssuedBefore.trans {first second third : Option Nat} :
    IssuedBefore first second → IssuedBefore second third → IssuedBefore first third := by
  cases first <;> cases second <;> cases third <;> simp only [IssuedBefore] <;> grind

theorem IssuedBefore.total (first second : Option Nat) :
    IssuedBefore first second ∨ IssuedBefore second first := by
  cases first <;> cases second <;> simp only [IssuedBefore] <;> grind

theorem IssuedBefore.antisymm {first second : Option Nat} :
    IssuedBefore first second → IssuedBefore second first → first = second := by
  cases first <;> cases second <;> simp only [IssuedBefore] <;> grind

instance : IsTrans EvictionCandidate EvictionCandidate.Before where
  trans first second third := by
    intro ⟨newer, lesser⟩ ⟨newerStill, lesserStill⟩
    refine ⟨newerStill.trans newer, fun same => ?_⟩
    have middle : first.issuedAt = second.issuedAt :=
      IssuedBefore.antisymm (same ▸ newerStill) newer
    exact (lesser middle).trans (lesserStill (middle.symm.trans same))

instance : Std.Total EvictionCandidate.Before where
  total first second := by
    by_cases same : first.issuedAt = second.issuedAt
    · rcases String.le_total first.entryKey second.entryKey with lesser | lesser
      · exact .inl ⟨same ▸ IssuedBefore.refl _, fun _ => lesser⟩
      · exact .inr ⟨same ▸ IssuedBefore.refl _, fun _ => lesser⟩
    · rcases IssuedBefore.total first.issuedAt second.issuedAt with older | older
      · exact .inr ⟨older, fun equal => absurd equal.symm same⟩
      · exact .inl ⟨older, fun equal => absurd equal same⟩

theorem pairwise_reverse_evictionCandidates {order : List EvictionCandidate}
    (ordered : evictionCandidates tools policy directory target now = .ok order) :
    order.reverse.Pairwise fun first second => IssuedBefore first.issuedAt second.issuedAt := by
  simp only [evictionCandidates, Result.bind_eq_ok, Result.pure_eq_ok] at ordered
  obtain ⟨candidates, _, rfl⟩ := ordered
  rw [List.pairwise_reverse]
  have sorted := List.pairwise_insertionSort EvictionCandidate.Before (candidates.filterMap id)
  exact sorted.imp fun inOrder => inOrder.1

end SharedContext.LocalState
