import SharedContext.LocalState.LeaseEviction

/-!
# The first authorization of a session

An authorization either stores one new lease, for which no more entries are
evicted than it needs, or changes nothing.  Eviction starts before it is known
that room can be made and that the target may be replaced, so a refusal changes
nothing exactly when no lease was evicted on the way to it.
-/

namespace SharedContext.LocalState

variable {Content : Type} {tools : LeaseTools Content} {policy : AuthorizedSessionScopePolicy}
  {directory : LeaseDirectory Content} {target : String} {recordBytes now : Nat}

/-! ### What an authorization is for -/

/-- One lease was stored, and only what it needs was evicted. -/
structure StoresOne (tools : LeaseTools Content) (policy : AuthorizedSessionScopePolicy)
    (before : LeaseDirectory Content) (now : Nat) (scope : AuthorizedSessionScope)
    (evicted : List String) (after : LeaseDirectory Content) : Prop where
  stored : after = (removeAll before evicted).insert
    (recordName tools scope.externalSessionLocator)
    (.file 1 true (.readable (tools.toVecPretty scope)))
  found : classifiedRecord tools policy after scope.externalSessionLocator = .ok (some scope)
  entries : (usage tools after none).entries ≤ policy.maxEntries
  bytes : (usage tools after none).bytes ≤ policy.maxTotalBytes
  safe : ∀ name ∈ evicted, name ≠ recordName tools scope.externalSessionLocator ∧
    ∃ node, before.get? name = some node ∧ node.isSafe = true
  needed : ∀ fewer < evicted.length,
    ¬ Fits tools policy (recordName tools scope.externalSessionLocator)
      (tools.length (tools.toVecPretty scope)) (removeAll before (evicted.take fewer))
  /-- What was evicted stood first among what could have been evicted then. -/
  ordered : ∀ index name node other otherNode, evicted[index]? = some name →
    before.get? name = some node → before.get? other = some otherNode →
      other ≠ recordName tools scope.externalSessionLocator → otherNode.isSafe = true →
        other ∉ evicted.take index →
          IssuedBefore (issueTime tools policy now name node)
            (issueTime tools policy now other otherNode)

def KeepsLeases (tools : LeaseTools Content) (policy : AuthorizedSessionScopePolicy)
    (before after : LeaseDirectory Content) : Prop :=
  ∀ locator record, classifiedRecord tools policy before locator = .ok (some record) →
    classifiedRecord tools policy after locator = .ok (some record)

/-- An outcome and the directory it leaves: one lease was stored, one was
found, or every lease was kept in place. -/
def SoundOutcome (tools : LeaseTools Content) (policy : AuthorizedSessionScopePolicy)
    (before : LeaseDirectory Content) (locator : ExternalSessionLocator) (now : Nat) :
    Result AuthorizedSessionScopeAuthorizeOutcome × LeaseDirectory Content → Prop
  | (.ok outcome, after) =>
      outcome.scope.externalSessionLocator = locator ∧
        if outcome.created = true then
          StoresOne tools policy before now outcome.scope outcome.evictedEntryKeys after
        else
          after = before ∧ outcome.evictedEntryKeys = [] ∧
            classifiedRecord tools policy before locator = .ok (some outcome.scope)
  | (.error _, after) => KeepsLeases tools policy before after

/-- The first authorization of a session stores one lease or changes nothing. -/
def StoresOrKeeps (tools : LeaseTools Content) (policy : AuthorizedSessionScopePolicy)
    (directory : LeaseDirectory Content) (locator : ExternalSessionLocator)
    (catalog : RepositoryCatalogSnapshot) (canonicalStartupCwd : HostPath) (now : Int)
    (busy : Bool) : Prop :=
  SoundOutcome tools policy directory locator now.toNat
    (tryAuthorizeMissingAt tools policy directory locator catalog canonicalStartupCwd now busy)

/-- The entry holds the lease of a session. -/
def IsLease (tools : LeaseTools Content) (policy : AuthorizedSessionScopePolicy)
    (directory : LeaseDirectory Content) (name : String) : Prop :=
  ∃ locator record, recordName tools locator = name ∧
    classifiedRecord tools policy directory locator = .ok (some record)

def EntryNode.isReplaceable : EntryNode Content → Bool
  | .symlink _ => false
  | .directory _ => false
  | _ => true

/-- Room can be made and used, or no lease is evicted in the attempt. -/
def EvictionIsHarmless (tools : LeaseTools Content) (policy : AuthorizedSessionScopePolicy)
    (directory : LeaseDirectory Content) (target : String) (recordBytes now : Nat) : Prop :=
  ∀ order, evictionCandidates tools policy directory target now = .ok order →
    let names := order.reverse.map EvictionCandidate.entryKey
    (Fits tools policy target recordBytes (removeAll directory names) ∧
      ∀ node, directory.get? target = some node → node.isReplaceable = true) ∨
    ∃ count, (∀ name ∈ names.take count, ¬ IsLease tools policy directory name) ∧
      (count = names.length ∨
        Fits tools policy target recordBytes (removeAll directory (names.take count)))

/-! ### The record that is stored -/

theorem hasJsonExtension_recordName (locator : ExternalSessionLocator) :
    hasJsonExtension (recordName tools locator) = true := by
  unfold hasJsonExtension recordName
  rw [Bool.and_eq_true, List.isSuffixOf_iff_suffix, decide_eq_true_eq]
  simp only [String.toList_append]
  constructor
  · exact List.suffix_append _ _
  · rw [List.length_append, List.length_append]
    have extension : ".json".toList.length = 5 := by decide
    have start : "scope-".toList.length = 6 := by decide
    omega

theorem serializeScope_eq_ok {scope : AuthorizedSessionScope} {bytes : Content} :
    serializeScope tools policy scope = .ok bytes ↔
      tools.length bytes ≤ policy.maxEntryBytes ∧ bytes = tools.toVecPretty scope := by
  simp only [serializeScope, Result.bind_eq_ok, Result.exists_unit, Result.require_eq_ok,
    Result.pure_eq_ok]
  constructor
  · rintro ⟨small, rfl⟩
    exact ⟨small, rfl⟩
  · rintro ⟨small, rfl⟩
    exact ⟨small, rfl⟩

theorem validate_of_scopeForAuthorization {locator : ExternalSessionLocator}
    {catalog : RepositoryCatalogSnapshot} {startupCwd : HostPath} {time : Int}
    {scope : AuthorizedSessionScope}
    (authorized : scopeForAuthorization locator catalog startupCwd time = .ok scope) :
    scope.externalSessionLocator = locator ∧ scope.validate = .ok () := by
  simp only [scopeForAuthorization, Result.bind_eq_ok, Result.exists_unit,
    Result.pure_eq_ok] at authorized
  obtain ⟨_, decision, _, issued, _, valid, rfl⟩ := authorized
  exact ⟨rfl, valid⟩

theorem startup_of_scopeForAuthorization {locator : ExternalSessionLocator}
    {catalog : RepositoryCatalogSnapshot} {startupCwd : HostPath} {time : Int}
    {scope : AuthorizedSessionScope}
    (authorized : scopeForAuthorization locator catalog startupCwd time = .ok scope) :
    scope.startupCwd = startupCwd ∧ scope.issuedAtUnixSeconds = time.toNat := by
  simp only [scopeForAuthorization, unixSeconds, Result.bind_eq_ok, Result.exists_unit,
    Result.pure_eq_ok] at authorized
  obtain ⟨_, decision, _, _, ⟨_, rfl⟩, _, rfl⟩ := authorized
  exact ⟨rfl, rfl⟩

theorem readRecord_toVecPretty {scope : AuthorizedSessionScope} {name : String}
    (valid : scope.validate = .ok ())
    (small : tools.length (tools.toVecPretty scope) ≤ policy.maxEntryBytes)
    (extension : hasJsonExtension name = true) :
    readRecord tools policy name (.file 1 true (.readable (tools.toVecPretty scope))) =
      .ok scope := by
  unfold readRecord
  rw [Result.seq_eq_ok, Result.seq_eq_ok, Result.require_eq_ok, Result.require_eq_ok]
  refine ⟨⟨rfl, extension⟩, small, ?_⟩
  rw [Result.seq_eq_ok, Result.require_eq_ok]
  refine ⟨rfl, ?_⟩
  simp only [tools.fromSlice_toVecPretty]
  rw [Result.seq_eq_ok, Result.pure_eq_ok]
  exact ⟨valid, rfl⟩

theorem classifiedRecord_congr {after : LeaseDirectory Content} {locator : ExternalSessionLocator}
    (same : after.get? (recordName tools locator) = directory.get? (recordName tools locator)) :
    classifiedRecord tools policy after locator =
      classifiedRecord tools policy directory locator := by
  unfold classifiedRecord readOptionalRecord
  rw [same]

theorem readOptionalRecord_eq_some {name : String} {record : AuthorizedSessionScope} :
    readOptionalRecord tools policy directory name = .ok (some record) ↔
      ∃ node, directory.get? name = some node ∧ readRecord tools policy name node = .ok record := by
  unfold readOptionalRecord
  cases found : directory.get? name with
  | none => simp
  | some node => simp [Result.map_eq_ok]

theorem classifiedRecord_eq_some {locator : ExternalSessionLocator}
    {record : AuthorizedSessionScope} :
    classifiedRecord tools policy directory locator = .ok (some record) ↔
      readOptionalRecord tools policy directory (recordName tools locator) = .ok (some record) ∧
        record.externalSessionLocator = locator := by
  unfold classifiedRecord
  split
  · rename_i stored read
    by_cases own : stored.externalSessionLocator = locator
    · simp only [own, if_true, Result.pure_eq_ok, read, Except.ok.injEq, Option.some.injEq]
      exact ⟨fun same => ⟨same, same ▸ own⟩, And.left⟩
    · simp only [own, if_false, Result.pure_eq_ok, read, Except.ok.injEq, Option.some.injEq,
        reduceCtorEq, false_iff, not_and]
      intro same
      exact same ▸ own
  · rename_i read
    simp [read]
  · rename_i error read
    split <;> simp [read]

theorem classifiedRecord_insert {scope : AuthorizedSessionScope}
    (valid : scope.validate = .ok ())
    (small : tools.length (tools.toVecPretty scope) ≤ policy.maxEntryBytes) :
    classifiedRecord tools policy
      (directory.insert (recordName tools scope.externalSessionLocator)
        (.file 1 true (.readable (tools.toVecPretty scope))))
      scope.externalSessionLocator = .ok (some scope) := by
  rw [classifiedRecord_eq_some, readOptionalRecord_eq_some]
  refine ⟨⟨_, ?_, readRecord_toVecPretty valid small (hasJsonExtension_recordName _)⟩, rfl⟩
  rw [BTreeMap.get?_insert, if_pos rfl]

theorem keepsLeases_removeAll {names : List String} :
    KeepsLeases tools policy directory (removeAll directory names) ↔
      ∀ name ∈ names, ¬ IsLease tools policy directory name := by
  constructor
  · rintro keeps name removed ⟨locator, record, rfl, classified⟩
    obtain ⟨read, _⟩ := classifiedRecord_eq_some.mp (keeps locator record classified)
    obtain ⟨node, found, _⟩ := readOptionalRecord_eq_some.mp read
    rw [get?_removeAll, if_pos removed] at found
    cases found
  · intro leaseless locator record classified
    have kept : recordName tools locator ∉ names :=
      fun removed => leaseless _ removed ⟨locator, record, rfl, classified⟩
    have same : (removeAll directory names).get? (recordName tools locator) =
        directory.get? (recordName tools locator) := by
      rw [get?_removeAll, if_neg kept]
    rw [classifiedRecord_congr same, classified]

/-! ### The room that is made -/

theorem sortedEntries_insert {node : EntryNode Content} :
    (sortedEntries (directory.insert target node)).Perm
      ((target, node) :: otherEntries directory target) := by
  have absent : (target, node) ∉ otherEntries directory target :=
    fun listed => (mem_otherEntries.mp listed).2 rfl
  rw [List.perm_ext_iff_of_nodup nodup_sortedEntries
    (List.nodup_cons.mpr ⟨absent, nodup_otherEntries⟩)]
  rintro ⟨name, other⟩
  rw [mem_sortedEntries, List.mem_cons, mem_otherEntries, BTreeMap.get?_insert]
  by_cases isTarget : name = target
  · subst isTarget
    simp [eq_comm]
  · simp [isTarget]

theorem usage_insert_of_fits {node : EntryNode Content}
    (fits : Fits tools policy target (node.length tools) directory) :
    (usage tools (directory.insert target node) none).entries ≤ policy.maxEntries ∧
      (usage tools (directory.insert target node) none).bytes ≤ policy.maxTotalBytes := by
  have permuted := @sortedEntries_insert _ directory target node
  have lengths := permuted.length_eq
  have sums := (permuted.map fun entry => entry.2.length tools).sum_eq
  rw [List.length_cons] at lengths
  rw [List.map_cons, List.sum_cons] at sums
  rw [usage_none, lengths, sums]
  rw [fits_iff] at fits
  unfold saturatingAdd at fits
  simp only
  omega

theorem mem_evictionNames {order : List EvictionCandidate}
    (ordered : evictionCandidates tools policy directory target now = .ok order) {name : String}
    (listed : name ∈ order.reverse.map EvictionCandidate.entryKey) :
    name ≠ target ∧ ∃ node, directory.get? name = some node ∧ node.isSafe = true := by
  obtain ⟨candidate, isCandidate, rfl⟩ := List.mem_map.mp listed
  obtain ⟨node, found, different, isSafe, _⟩ :=
    (mem_evictionCandidates ordered).mp (List.mem_reverse.mp isCandidate)
  exact ⟨different, node, found, isSafe⟩

theorem issuedBefore_of_evictionOrder {order : List EvictionCandidate}
    (ordered : evictionCandidates tools policy directory target now = .ok order)
    {index : Nat} {name other : String} {node otherNode : EntryNode Content}
    (position : (order.reverse.map EvictionCandidate.entryKey)[index]? = some name)
    (found : directory.get? name = some node) (otherFound : directory.get? other = some otherNode)
    (different : other ≠ target) (isSafe : otherNode.isSafe = true)
    (remaining : other ∉ (order.reverse.map EvictionCandidate.entryKey).take index) :
    IssuedBefore (issueTime tools policy now name node)
      (issueTime tools policy now other otherNode) := by
  have otherListed : (⟨other, issueTime tools policy now other otherNode⟩ : EvictionCandidate) ∈
      order.reverse := by
    rw [List.mem_reverse, mem_evictionCandidates ordered]
    exact ⟨otherNode, otherFound, different, isSafe, rfl⟩
  rw [List.getElem?_map, Option.map_eq_some_iff] at position
  obtain ⟨candidate, at_index, rfl⟩ := position
  obtain ⟨stored, storedFound, _, _, issued⟩ := (mem_evictionCandidates ordered).mp
    (List.mem_reverse.mp (List.mem_of_getElem? at_index))
  rw [found] at storedFound
  cases storedFound
  rw [← issued]
  obtain ⟨later, laterEq⟩ := List.mem_iff_getElem?.mp otherListed
  have notEarlier : ¬ later < index := by
    intro earlier
    refine remaining (List.mem_take_iff_getElem.mpr ?_)
    obtain ⟨bounded, value⟩ := List.getElem?_eq_some_iff.mp laterEq
    refine ⟨later, by rw [List.length_map]; omega, ?_⟩
    rw [List.getElem_map, value]
  rcases Nat.lt_or_ge index later with before | same
  · obtain ⟨bounded, value⟩ := List.getElem?_eq_some_iff.mp at_index
    obtain ⟨laterBounded, laterValue⟩ := List.getElem?_eq_some_iff.mp laterEq
    have inOrder := List.pairwise_iff_getElem.mp (pairwise_reverse_evictionCandidates ordered)
      index later bounded laterBounded before
    rw [value, laterValue] at inOrder
    exact inOrder
  · have equal : later = index := by omega
    subst equal
    rw [laterEq] at at_index
    cases at_index
    exact IssuedBefore.refl _

/-! ### The authorization -/

theorem replaceRecord_eq_ok {bytes : Content} {stored : LeaseDirectory Content} :
    replaceRecord directory target bytes false = .ok stored ↔
      (∀ node, directory.get? target = some node → node.isReplaceable = true) ∧
        stored = directory.insert target (.file 1 true (.readable bytes)) := by
  unfold replaceRecord
  cases found : directory.get? target with
  | none => simp [eq_comm (a := stored)]
  | some node =>
      cases node <;> simp [EntryNode.isReplaceable, eq_comm (a := stored), throw, throwThe,
        MonadExceptOf.throw, Functor.map, Except.map]

theorem evictForCapacity_of_order {order : List EvictionCandidate}
    (ordered : evictionCandidates tools policy directory target now = .ok order) :
    evictForCapacity tools policy directory target recordBytes now =
      evictUntilFits tools policy target recordBytes order.reverse directory [] := by
  unfold evictForCapacity
  rw [ordered]
  unfold evictUntilFits
  cases validateNewUsage policy (usage tools directory (some target)) true recordBytes <;> rfl

theorem evictForCapacity_of_error {error : Error} (recordBytes : Nat)
    (refused : evictionCandidates tools policy directory target now = .error error) :
    (evictForCapacity tools policy directory target recordBytes now).2 = directory ∧
      ((evictForCapacity tools policy directory target recordBytes now).1 = .ok [] ∧
          Fits tools policy target recordBytes directory ∨
        ∃ reason, (evictForCapacity tools policy directory target recordBytes now).1 =
          .error reason) := by
  unfold evictForCapacity Fits
  rw [refused]
  cases validateNewUsage policy (usage tools directory (some target)) true recordBytes with
  | ok value => exact ⟨rfl, .inl ⟨rfl, rfl⟩⟩
  | error reason => exact ⟨rfl, .inr ⟨error, rfl⟩⟩

theorem tryAuthorizeMissingAt_of_missing {locator : ExternalSessionLocator}
    {catalog : RepositoryCatalogSnapshot} {startupCwd : HostPath} {time : Int}
    {scope : AuthorizedSessionScope}
    (authorized : scopeForAuthorization locator catalog startupCwd time = .ok scope)
    (small : tools.length (tools.toVecPretty scope) ≤ policy.maxEntryBytes)
    (missing : classifiedRecord tools policy directory locator = .ok none) :
    tryAuthorizeMissingAt tools policy directory locator catalog startupCwd time false =
      match evictForCapacity tools policy directory (recordName tools locator)
        (tools.length (tools.toVecPretty scope)) time.toNat with
      | (.error error, evicted) => (.error error, evicted)
      | (.ok evictedEntryKeys, evicted) =>
          match replaceRecord evicted (recordName tools locator) (tools.toVecPretty scope)
            false with
          | .error error => (.error error, evicted)
          | .ok stored => (.ok ⟨scope, true, evictedEntryKeys⟩, stored) := by
  have serialized : serializeScope tools policy scope = .ok (tools.toVecPretty scope) :=
    serializeScope_eq_ok.mpr ⟨small, rfl⟩
  unfold tryAuthorizeMissingAt
  simp only [authorized, serialized, missing, bind, Except.bind, pure, Except.pure,
    Bool.false_eq_true, if_false] <;> rfl

theorem storesOne_of_fits {scope : AuthorizedSessionScope} {evicted : List String}
    (valid : scope.validate = .ok ())
    (small : tools.length (tools.toVecPretty scope) ≤ policy.maxEntryBytes)
    (fits : Fits tools policy (recordName tools scope.externalSessionLocator)
      (tools.length (tools.toVecPretty scope)) (removeAll directory evicted))
    (needed : ∀ fewer < evicted.length,
      ¬ Fits tools policy (recordName tools scope.externalSessionLocator)
        (tools.length (tools.toVecPretty scope)) (removeAll directory (evicted.take fewer)))
    (ofOrder : evicted = [] ∨ ∃ order count,
      evictionCandidates tools policy directory
        (recordName tools scope.externalSessionLocator) now = .ok order ∧
      evicted = (order.reverse.map EvictionCandidate.entryKey).take count) :
    StoresOne tools policy directory now scope evicted
      ((removeAll directory evicted).insert (recordName tools scope.externalSessionLocator)
        (.file 1 true (.readable (tools.toVecPretty scope)))) where
  stored := rfl
  found := classifiedRecord_insert valid small
  entries := (usage_insert_of_fits fits).1
  bytes := (usage_insert_of_fits fits).2
  needed := needed
  safe := by
    rcases ofOrder with rfl | ⟨order, count, ordered, rfl⟩
    · nofun
    · intro name listed
      exact mem_evictionNames ordered (List.mem_of_mem_take listed)
  ordered := by
    rcases ofOrder with rfl | ⟨order, count, ordered, rfl⟩
    · intro index name node other otherNode position
      simp at position
    · intro index name node other otherNode position found otherFound different isSafe remaining
      rw [List.getElem?_take] at position
      split at position
      · rename_i within
        rw [List.take_take, Nat.min_eq_left (Nat.le_of_lt within)] at remaining
        exact issuedBefore_of_evictionOrder ordered position found otherFound different isSafe
          remaining
      · cases position

theorem KeepsLeases.refl : KeepsLeases tools policy directory directory :=
  fun _ _ classified => classified

theorem soundOutcome_of_room {scope : AuthorizedSessionScope} {evicted : List String}
    (valid : scope.validate = .ok ())
    (small : tools.length (tools.toVecPretty scope) ≤ policy.maxEntryBytes)
    (fits : Fits tools policy (recordName tools scope.externalSessionLocator)
      (tools.length (tools.toVecPretty scope)) (removeAll directory evicted))
    (needed : ∀ fewer < evicted.length,
      ¬ Fits tools policy (recordName tools scope.externalSessionLocator)
        (tools.length (tools.toVecPretty scope)) (removeAll directory (evicted.take fewer)))
    (ofOrder : evicted = [] ∨ ∃ order count,
      evictionCandidates tools policy directory
        (recordName tools scope.externalSessionLocator) now = .ok order ∧
      evicted = (order.reverse.map EvictionCandidate.entryKey).take count) :
    SoundOutcome tools policy directory scope.externalSessionLocator now
        (match replaceRecord (removeAll directory evicted)
            (recordName tools scope.externalSessionLocator) (tools.toVecPretty scope) false with
          | .error error => (.error error, removeAll directory evicted)
          | .ok stored => (.ok ⟨scope, true, evicted⟩, stored)) ↔
      (∀ node, directory.get? (recordName tools scope.externalSessionLocator) = some node →
        node.isReplaceable = true) ∨
      ∀ name ∈ evicted, ¬ IsLease tools policy directory name := by
  have stored := storesOne_of_fits valid small fits needed ofOrder
  have sameTarget : (removeAll directory evicted).get?
      (recordName tools scope.externalSessionLocator) =
        directory.get? (recordName tools scope.externalSessionLocator) := by
    rw [get?_removeAll, if_neg fun listed => (stored.safe _ listed).1 rfl]
  rw [← keepsLeases_removeAll, ← sameTarget]
  cases replaced : replaceRecord (removeAll directory evicted)
      (recordName tools scope.externalSessionLocator) (tools.toVecPretty scope) false with
  | ok result =>
      obtain ⟨replaceable, rfl⟩ := replaceRecord_eq_ok.mp replaced
      exact ⟨fun _ => .inl replaceable, fun _ => ⟨rfl, stored⟩⟩
  | error error =>
      refine ⟨.inr, fun either => either.resolve_left fun replaceable => ?_⟩
      rw [replaceRecord_eq_ok.mpr ⟨replaceable, rfl⟩] at replaced
      cases replaced

theorem needed_of_shorter {names : List String} {count : Nat} (bounded : count ≤ names.length)
    (shorter : ∀ fewer < count,
      ¬ Fits tools policy target recordBytes (removeAll directory (names.take fewer))) :
    ∀ fewer < (names.take count).length,
      ¬ Fits tools policy target recordBytes
        (removeAll directory ((names.take count).take fewer)) := by
  intro fewer less
  rw [List.length_take, Nat.min_eq_left bounded] at less
  rw [List.take_take, Nat.min_eq_left (Nat.le_of_lt less)]
  exact shorter fewer less

theorem Fits.removeAll_take {names : List String} {count : Nat}
    (fits : Fits tools policy target recordBytes (removeAll directory (names.take count))) :
    Fits tools policy target recordBytes (removeAll directory names) := by
  refine fits.mono fun name node found => ?_
  rw [get?_removeAll] at found ⊢
  split at found
  · cases found
  · rename_i kept
    rw [if_neg fun listed => kept (List.mem_of_mem_take listed), found]

theorem harmless_of_fits {names : List String} {count : Nat} {replaceable : Prop}
    {lease : String → Prop}
    (fits : Fits tools policy target recordBytes (removeAll directory (names.take count)))
    (shorter : ∀ fewer < count,
      ¬ Fits tools policy target recordBytes (removeAll directory (names.take fewer))) :
    (replaceable ∨ ∀ name ∈ names.take count, ¬ lease name) ↔
      (Fits tools policy target recordBytes (removeAll directory names) ∧ replaceable) ∨
      ∃ enough, (∀ name ∈ names.take enough, ¬ lease name) ∧
        (enough = names.length ∨
          Fits tools policy target recordBytes (removeAll directory (names.take enough))) := by
  constructor
  · intro either
    rcases either with free | leaseless
    · exact .inl ⟨fits.removeAll_take, free⟩
    · exact .inr ⟨count, leaseless, .inr fits⟩
  · intro either
    rcases either with ⟨_, free⟩ | ⟨enough, leaseless, sufficient⟩
    · exact .inl free
    · refine .inr fun name listed => leaseless name ?_
      rcases sufficient with rfl | sufficient
      · rw [List.take_length]
        exact List.mem_of_mem_take listed
      · have atLeast : count ≤ enough :=
          Nat.le_of_not_lt fun less => shorter enough less sufficient
        exact (List.take_sublist_take_left atLeast).subset listed

theorem harmless_of_unfit {names : List String} {replaceable : Prop} {lease : String → Prop}
    (unfit : ¬ Fits tools policy target recordBytes (removeAll directory names)) :
    (∀ name ∈ names, ¬ lease name) ↔
      (Fits tools policy target recordBytes (removeAll directory names) ∧ replaceable) ∨
      ∃ enough, (∀ name ∈ names.take enough, ¬ lease name) ∧
        (enough = names.length ∨
          Fits tools policy target recordBytes (removeAll directory (names.take enough))) := by
  constructor
  · intro leaseless
    refine .inr ⟨names.length, ?_, .inl rfl⟩
    rw [List.take_length]
    exact leaseless
  · intro either
    rcases either with ⟨fits, _⟩ | ⟨enough, leaseless, rfl | sufficient⟩
    · exact absurd fits unfit
    · rw [List.take_length] at leaseless
      exact leaseless
    · exact absurd sufficient.removeAll_take unfit

theorem storesOrKeeps_iff_of_missing {locator : ExternalSessionLocator}
    {catalog : RepositoryCatalogSnapshot} {startupCwd : HostPath} {time : Int}
    {scope : AuthorizedSessionScope}
    (authorized : scopeForAuthorization locator catalog startupCwd time = .ok scope)
    (small : tools.length (tools.toVecPretty scope) ≤ policy.maxEntryBytes)
    (missing : classifiedRecord tools policy directory locator = .ok none) :
    StoresOrKeeps tools policy directory locator catalog startupCwd time false ↔
      EvictionIsHarmless tools policy directory (recordName tools locator)
        (tools.length (tools.toVecPretty scope)) time.toNat := by
  obtain ⟨rfl, valid⟩ := validate_of_scopeForAuthorization authorized
  unfold StoresOrKeeps
  rw [tryAuthorizeMissingAt_of_missing authorized small missing]
  unfold EvictionIsHarmless
  cases ordered : evictionCandidates tools policy directory
    (recordName tools scope.externalSessionLocator) time.toNat with
  | error error =>
      simp only [reduceCtorEq, false_implies, implies_true, iff_true]
      obtain ⟨unchanged, outcome⟩ :=
        evictForCapacity_of_error (tools.length (tools.toVecPretty scope)) ordered
      cases attempt : evictForCapacity tools policy directory
        (recordName tools scope.externalSessionLocator) (tools.length (tools.toVecPretty scope))
        time.toNat with
      | mk result left =>
          rw [attempt] at unchanged outcome
          simp only at unchanged outcome
          rw [unchanged]
          rcases outcome with ⟨rfl, fits⟩ | ⟨reason, rfl⟩
          · have roomLeft : Fits tools policy (recordName tools scope.externalSessionLocator)
                (tools.length (tools.toVecPretty scope)) (removeAll directory []) := fits
            exact (soundOutcome_of_room valid small roomLeft nofun (.inl rfl)).mpr (.inr nofun)
          · exact KeepsLeases.refl
  | ok order =>
      simp only [Except.ok.injEq, forall_eq']
      obtain ⟨count, bounded, left, shorter, ending⟩ :=
        @evictUntilFits_spec _ tools policy directory
          (recordName tools scope.externalSessionLocator)
          (tools.length (tools.toVecPretty scope)) order.reverse []
      rw [evictForCapacity_of_order ordered]
      cases attempt : evictUntilFits tools policy (recordName tools scope.externalSessionLocator)
        (tools.length (tools.toVecPretty scope)) order.reverse directory [] with
      | mk result remaining =>
          rw [attempt] at left ending
          simp only at left ending
          subst left
          rw [← List.length_map EvictionCandidate.entryKey] at bounded
          rcases ending with ⟨rfl, fits⟩ | ⟨⟨reason, rfl⟩, full, unfit⟩
          · rw [List.nil_append]
            rw [soundOutcome_of_room valid small fits (needed_of_shorter bounded shorter)
              (.inr ⟨order, count, ordered, rfl⟩)]
            exact harmless_of_fits fits shorter
          · rw [full, ← List.length_map EvictionCandidate.entryKey, List.take_length] at unfit ⊢
            change KeepsLeases tools policy directory _ ↔ _
            rw [keepsLeases_removeAll]
            exact harmless_of_unfit unfit

theorem tryAuthorizeMissingAt_of_not_reached {locator : ExternalSessionLocator}
    {catalog : RepositoryCatalogSnapshot} {startupCwd : HostPath} {time : Int} {busy : Bool}
    (unreached : ¬ (busy = false ∧
      ∃ scope, scopeForAuthorization locator catalog startupCwd time = .ok scope ∧
        tools.length (tools.toVecPretty scope) ≤ policy.maxEntryBytes ∧
          classifiedRecord tools policy directory locator = .ok none)) :
    ∃ result, tryAuthorizeMissingAt tools policy directory locator catalog startupCwd time busy =
        (result, directory) ∧
      ∀ outcome, result = .ok outcome →
        outcome.created = false ∧ outcome.evictedEntryKeys = [] ∧
          classifiedRecord tools policy directory locator = .ok (some outcome.scope) := by
  unfold tryAuthorizeMissingAt
  cases prepared : (do
      let scope ← scopeForAuthorization locator catalog startupCwd time
      let bytes ← serializeScope tools policy scope
      if busy = true then throw lockBusy
      let existing ← classifiedRecord tools policy directory locator
      pure (scope, bytes, existing) : Result (AuthorizedSessionScope × Content ×
        Option AuthorizedSessionScope)) with
  | error error => exact ⟨_, rfl, nofun⟩
  | ok ready =>
      cases busy with
      | true =>
          simp [Result.bind_eq_ok] at prepared
      | false =>
          simp only [Bool.false_eq_true, if_false, Result.bind_eq_ok, Result.pure_eq_ok,
            serializeScope_eq_ok] at prepared
          obtain ⟨scope, authorized, _, ⟨small, rfl⟩, existing, classified, rfl⟩ := prepared
          cases existing with
          | none => exact absurd ⟨rfl, scope, authorized, small, classified⟩ unreached
          | some record =>
              refine ⟨_, rfl, fun outcome found => ?_⟩
              cases found
              exact ⟨rfl, rfl, classified⟩

theorem storesOrKeeps_of_not_reached {locator : ExternalSessionLocator}
    {catalog : RepositoryCatalogSnapshot} {startupCwd : HostPath} {time : Int} {busy : Bool}
    (unreached : ¬ (busy = false ∧
      ∃ scope, scopeForAuthorization locator catalog startupCwd time = .ok scope ∧
        tools.length (tools.toVecPretty scope) ≤ policy.maxEntryBytes ∧
          classifiedRecord tools policy directory locator = .ok none)) :
    StoresOrKeeps tools policy directory locator catalog startupCwd time busy := by
  obtain ⟨result, attempt, found⟩ := tryAuthorizeMissingAt_of_not_reached unreached
  unfold StoresOrKeeps
  rw [attempt]
  cases result with
  | error error => exact KeepsLeases.refl
  | ok outcome =>
      obtain ⟨created, evicted, classified⟩ := found outcome rfl
      refine ⟨(classifiedRecord_eq_some.mp classified).2, ?_⟩
      rw [if_neg (by simp [created])]
      exact ⟨rfl, evicted, classified⟩

/-- The first authorization of a session stores one lease or keeps every lease
in place, exactly when it finds a lease, prepares none, or evicts harmlessly. -/
theorem first_authorization_stores_or_keeps_iff (tools : LeaseTools Content)
    (policy : AuthorizedSessionScopePolicy) (directory : LeaseDirectory Content)
    (locator : ExternalSessionLocator) (catalog : RepositoryCatalogSnapshot)
    (canonicalStartupCwd : HostPath) (now : Int) (busy : Bool) :
    StoresOrKeeps tools policy directory locator catalog canonicalStartupCwd now busy ↔
      (busy = false →
        ∀ scope, scopeForAuthorization locator catalog canonicalStartupCwd now = .ok scope →
          tools.length (tools.toVecPretty scope) ≤ policy.maxEntryBytes →
            classifiedRecord tools policy directory locator = .ok none →
              EvictionIsHarmless tools policy directory (recordName tools locator)
                (tools.length (tools.toVecPretty scope)) now.toNat) := by
  by_cases reached : busy = false ∧
      ∃ scope, scopeForAuthorization locator catalog canonicalStartupCwd now = .ok scope ∧
        tools.length (tools.toVecPretty scope) ≤ policy.maxEntryBytes ∧
          classifiedRecord tools policy directory locator = .ok none
  · obtain ⟨rfl, scope, authorized, small, missing⟩ := reached
    rw [storesOrKeeps_iff_of_missing authorized small missing]
    constructor
    · intro harmless _ other otherAuthorized _ _
      rw [authorized] at otherAuthorized
      cases otherAuthorized
      exact harmless
    · intro harmless
      exact harmless rfl scope authorized small missing
  · refine iff_of_true (storesOrKeeps_of_not_reached reached) ?_
    intro idle scope authorized small missing
    exact absurd ⟨idle, scope, authorized, small, missing⟩ reached

/-! ### A refusal that costs a lease -/

/-- Records that are stored as they are, each of 400 bytes. -/
def plainTools : LeaseTools AuthorizedSessionScope where
  length _ := 400
  toVecPretty := id
  fromSlice := some
  fromSlice_toVecPretty _ := rfl
  locatorDigest locator :=
    s!"{locator.agentKind.length}-{locator.agentKind}-{locator.externalSessionId}"

def sampleLocator (session : String) : ExternalSessionLocator :=
  ⟨"codex", session⟩

def sampleCwd : HostPath :=
  ⟨true, ["home", "me", "work"]⟩

def sampleLease : AuthorizedSessionScope :=
  ⟨sampleLocator "first", .disabled, sampleCwd, 100, false, true⟩

/-- A directory with one lease, in which another session's entry is a
symbolic link. -/
def linkedDirectory : LeaseDirectory AuthorizedSessionScope :=
  (BTreeMap.empty.insert (recordName plainTools (sampleLocator "first"))
    (.file 1 true (.readable sampleLease))).insert
    (recordName plainTools (sampleLocator "second")) (.symlink 10)

theorem keepsLeases_of_refused {locator : ExternalSessionLocator}
    {outcome : Result AuthorizedSessionScopeAuthorizeOutcome × LeaseDirectory Content}
    (sound : SoundOutcome tools policy directory locator now outcome)
    (refused : outcome.1.isOk = false) : KeepsLeases tools policy directory outcome.2 := by
  obtain ⟨result, after⟩ := outcome
  cases result with
  | ok outcome => cases refused
  | error error => exact sound

theorem refused_authorization_evicts :
    ¬ StoresOrKeeps plainTools ⟨16 * 1024, 1, 8 * 1024 * 1024⟩ linkedDirectory
      (sampleLocator "second") ⟨[], false, none⟩ sampleCwd 200 false := by
  intro sound
  have keeps := keepsLeases_of_refused sound (by decide)
  have lost := keeps (sampleLocator "first") sampleLease (by decide)
  revert lost
  decide

end SharedContext.LocalState
