import SharedContext.LocalState.LeaseOperations

/-!
# Runs of a lease store

Any number of processes work on one store, and the lock makes each part of an
operation one step.  A reconciled read that is to be written waits between its
two steps, and everything else may happen meanwhile.  While a lease is held, its
directory and its time of issue stay, and each delivery is recorded once, as
long as no reconciled write returns a copy from before a delivery.
-/

namespace SharedContext.LocalState

/-! ### Steps -/

/-- A reconciled copy that its process is still to write. -/
structure PendingWrite where
  locator : ExternalSessionLocator
  reconciled : AuthorizedSessionScope
  deriving DecidableEq, Repr

structure LeaseState (Content : Type) where
  directory : LeaseDirectory Content
  pending : List PendingWrite

inductive LeaseEvent
  | authorize (locator : ExternalSessionLocator) (catalog : RepositoryCatalogSnapshot)
      (canonicalStartupCwd : HostPath) (now : Int) (busy : Bool)
  | readReconciled (locator : ExternalSessionLocator) (catalog : RepositoryCatalogSnapshot)
      (busy : Bool)
  | persist (position : Nat) (busy : Bool)
  | mark (locator : ExternalSessionLocator) (mark : DeliveryMark) (busy : Bool)
  | remove (locator : ExternalSessionLocator) (busy : Bool)
  | reclaim (maxAge : Nat) (now : Int)

inductive LeaseResponse
  | authorized (outcome : Result AuthorizedSessionScopeAuthorizeOutcome)
  | read (scope : Result (Option AuthorizedSessionScope))
  | persisted
  | marked (first : Result Bool)
  | removed (found : Result Bool)
  | reclaimed (report : Result AuthorizedSessionScopeReclaim)

section Runs

variable {Content : Type} (tools : LeaseTools Content) (policy : AuthorizedSessionScopePolicy)

/-- The result of an operation, and the directory it leaves; an error changes
nothing. -/
def settle {α : Type} (directory : LeaseDirectory Content)
    (outcome : Result (α × LeaseDirectory Content)) : Result α × LeaseDirectory Content :=
  match outcome with
  | .ok (value, after) => (.ok value, after)
  | .error error => (.error error, directory)

def perform (state : LeaseState Content) : LeaseEvent → LeaseResponse × LeaseState Content
  | .authorize locator catalog canonicalStartupCwd now busy =>
      let (outcome, directory) := tryAuthorizeMissingAt tools policy state.directory locator
        catalog canonicalStartupCwd now busy
      (.authorized outcome, { state with directory := directory })
  | .readReconciled locator catalog busy =>
      match tryReadReconciled tools policy state.directory locator catalog busy with
      | .error error => (.read (.error error), state)
      | .ok none => (.read (.ok none), state)
      | .ok (some (reconciled, changed)) =>
          (.read (.ok (some reconciled)),
            if changed = true then
              { state with pending := state.pending ++ [⟨locator, reconciled⟩] }
            else state)
  | .persist position busy =>
      match state.pending[position]? with
      | none => (.persisted, state)
      | some write =>
          let pending := state.pending.eraseIdx position
          match tryPersistReconciled tools policy state.directory write.locator
            write.reconciled busy with
          | .ok directory => (.persisted, ⟨directory, pending⟩)
          | .error _ => (.persisted, ⟨state.directory, pending⟩)
  | .mark locator mark busy =>
      let (first, directory) := settle state.directory
        (tryMarkDelivery tools policy state.directory locator mark busy)
      (.marked first, { state with directory := directory })
  | .remove locator busy =>
      let (found, directory) := settle state.directory
        (tryRemove tools policy state.directory locator busy)
      (.removed found, { state with directory := directory })
  | .reclaim maxAge now =>
      let (report, directory) := settle state.directory
        (reclaimStaleLeasesAt tools policy state.directory maxAge now)
      (.reclaimed report, { state with directory := directory })

def runEvents (state : LeaseState Content) (events : List LeaseEvent) : LeaseState Content :=
  events.foldl (fun state event => (perform tools policy state event).2) state

/-! ### The protocol -/

def Holds (state : LeaseState Content) (locator : ExternalSessionLocator)
    (record : AuthorizedSessionScope) : Prop :=
  classifiedRecord tools policy state.directory locator = .ok (some record)

/-- The session holds a lease before and after each of the events. -/
def HeldThroughout (locator : ExternalSessionLocator) :
    LeaseState Content → List LeaseEvent → Prop
  | state, [] => ∃ record, Holds tools policy state locator record
  | state, event :: events =>
      (∃ record, Holds tools policy state locator record) ∧
        HeldThroughout locator (perform tools policy state event).2 events

/-- A later record of the same lease: deliveries are not taken back. -/
structure Continues (first last : AuthorizedSessionScope) : Prop where
  startupCwd : last.startupCwd = first.startupCwd
  issuedAt : last.issuedAtUnixSeconds = first.issuedAtUnixSeconds
  delivered : ∀ mark : DeliveryMark, mark.select first = true → mark.select last = true

def LeaseEvent.session (state : LeaseState Content) : LeaseEvent → Option ExternalSessionLocator
  | .authorize locator _ _ _ _ => some locator
  | .readReconciled locator _ _ => some locator
  | .persist position _ => state.pending[position]?.map PendingWrite.locator
  | .mark locator _ _ => some locator
  | .remove locator _ => some locator
  | .reclaim _ _ => none

/-- What a run of the store keeps. -/
structure LeaseProtocol (initial : LeaseState Content) (events : List LeaseEvent) : Prop where
  /-- A lease that appears is the one its authorization stored. -/
  authorized : ∀ before event after, events = before ++ event :: after →
    ∀ locator record, ¬ (∃ held, Holds tools policy (runEvents tools policy initial before)
        locator held) →
      Holds tools policy (runEvents tools policy initial (before ++ [event])) locator record →
        ∃ catalog canonicalStartupCwd now evicted,
          event = .authorize locator catalog canonicalStartupCwd now false ∧
          (perform tools policy (runEvents tools policy initial before) event).1 =
            .authorized (.ok ⟨record, true, evicted⟩) ∧
          record.startupCwd = canonicalStartupCwd ∧
          record.issuedAtUnixSeconds = now.toNat
  /-- While it is held, its directory and its time of issue stay. -/
  held : ∀ before between after, events = before ++ (between ++ after) →
    ∀ locator first last,
      HeldThroughout tools policy locator (runEvents tools policy initial before) between →
      Holds tools policy (runEvents tools policy initial before) locator first →
      Holds tools policy (runEvents tools policy initial (before ++ between)) locator last →
        Continues first last
  /-- No delivery is the first one twice. -/
  marked : ∀ before between after locator mark busy otherBusy,
    events = before ++ (.mark locator mark busy :: (between ++ .mark locator mark otherBusy ::
      after)) →
    (perform tools policy (runEvents tools policy initial before)
      (.mark locator mark busy)).1 = .marked (.ok true) →
    HeldThroughout tools policy locator
      (runEvents tools policy initial (before ++ [.mark locator mark busy])) between →
    (perform tools policy (runEvents tools policy initial
      (before ++ (.mark locator mark busy :: between)))
      (.mark locator mark otherBusy)).1 ≠ .marked (.ok true)
  /-- A reconciled read answers what the catalog derives. -/
  reconciled : ∀ before locator catalog busy after scope,
    events = before ++ .readReconciled locator catalog busy :: after →
    (perform tools policy (runEvents tools policy initial before)
      (.readReconciled locator catalog busy)).1 = .read (.ok (some scope)) →
    ∃ record, Holds tools policy (runEvents tools policy initial before) locator record ∧
      scope.startupCwd = record.startupCwd ∧
      derivedDecision catalog record.startupCwd = .ok scope.decision
  /-- An operation on one session leaves the leases of others, but for those
  that an authorization evicts. -/
  others : ∀ before event after, events = before ++ event :: after →
    ∀ session locator record,
      event.session (runEvents tools policy initial before) = some session →
      locator ≠ session →
      Holds tools policy (runEvents tools policy initial before) locator record →
      Holds tools policy (runEvents tools policy initial (before ++ [event])) locator record ∨
        (runEvents tools policy initial (before ++ [event])).directory.get?
            (recordName tools locator) = none ∧
          ∃ catalog canonicalStartupCwd now,
            event = .authorize session catalog canonicalStartupCwd now false

/-- What an event must meet: a reconciled write does not return a copy from
before a delivery, and no two sessions share an entry. -/
def Orderly (state : LeaseState Content) : LeaseEvent → Prop
  | .persist position _ => ∀ write, state.pending[position]? = some write →
      ∀ existing, Holds tools policy state write.locator existing →
        existing.startupCwd = write.reconciled.startupCwd →
        existing.issuedAtUnixSeconds = write.reconciled.issuedAtUnixSeconds →
          ∀ mark : DeliveryMark, mark.select existing = true → mark.select write.reconciled = true
  | .authorize locator _ _ _ _ => ∀ other, other ≠ locator →
      recordName tools other = recordName tools locator →
        ∀ record, ¬ Holds tools policy state other record
  | _ => True

def OrderlyRun : LeaseState Content → List LeaseEvent → Prop
  | _, [] => True
  | state, event :: events =>
      Orderly tools policy state event ∧ OrderlyRun (perform tools policy state event).2 events

/-! ### What a step changes -/

/-- The changes an event can make to the directory. -/
inductive LeaseChange (state : LeaseState Content) :
    LeaseEvent → LeaseResponse → LeaseDirectory Content → Prop
  | unchanged {event response} (quiet : response ≠ .marked (.ok true)) :
      LeaseChange state event response state.directory
  | evicted {locator catalog canonicalStartupCwd now error names} :
      LeaseChange state (.authorize locator catalog canonicalStartupCwd now false)
        (.authorized (.error error)) (removeAll state.directory names)
  | stored {locator catalog canonicalStartupCwd now scope names}
      (prepared : scopeForAuthorization locator catalog canonicalStartupCwd now = .ok scope)
      (missing : classifiedRecord tools policy state.directory locator = .ok none) :
      LeaseChange state (.authorize locator catalog canonicalStartupCwd now false)
        (.authorized (.ok ⟨scope, true, names⟩))
        ((removeAll state.directory names).insert (recordName tools locator)
          (.file 1 true (.readable (tools.toVecPretty scope))))
  | rewritten {position busy write existing} (waits : state.pending[position]? = some write)
      (holds : Holds tools policy state write.locator existing)
      (sameCwd : existing.startupCwd = write.reconciled.startupCwd)
      (sameTime : existing.issuedAtUnixSeconds = write.reconciled.issuedAtUnixSeconds) :
      LeaseChange state (.persist position busy) .persisted
        (state.directory.insert (recordName tools write.locator)
          (.file 1 true (.readable (tools.toVecPretty write.reconciled))))
  | delivered {locator mark busy record} (holds : Holds tools policy state locator record)
      (undelivered : mark.select record = false)
      (readBack : classifiedRecord tools policy
        (state.directory.insert (recordName tools locator)
          (.file 1 true (.readable (tools.toVecPretty (mark.deliver record))))) locator =
            .ok (some (mark.deliver record))) :
      LeaseChange state (.mark locator mark busy) (.marked (.ok true))
        (state.directory.insert (recordName tools locator)
          (.file 1 true (.readable (tools.toVecPretty (mark.deliver record)))))
  | ended {locator busy found record} (holds : Holds tools policy state locator record) :
      LeaseChange state (.remove locator busy) (.removed found)
        (removeEntry state.directory (recordName tools locator))
  | reclaimed {maxAge now report names} :
      LeaseChange state (.reclaim maxAge now) (.reclaimed report)
        (removeAll state.directory names)

end Runs

section Changes

variable {Content : Type} {tools : LeaseTools Content} {policy : AuthorizedSessionScopePolicy}
  {state : LeaseState Content}

theorem evictForCapacity_spec (directory : LeaseDirectory Content) (target : String)
    (recordBytes now : Nat) :
    ∃ names, target ∉ names ∧
      (evictForCapacity tools policy directory target recordBytes now).2 =
        removeAll directory names ∧
      ∀ keys, (evictForCapacity tools policy directory target recordBytes now).1 = .ok keys →
        keys = names := by
  cases ordered : evictionCandidates tools policy directory target now with
  | error error =>
      obtain ⟨unchanged, outcome⟩ := evictForCapacity_of_error recordBytes ordered
      refine ⟨[], List.not_mem_nil, unchanged, fun keys made => ?_⟩
      rcases outcome with ⟨none, _⟩ | ⟨reason, refused⟩
      · rw [none] at made
        cases made
        rfl
      · rw [refused] at made
        cases made
  | ok order =>
      obtain ⟨count, _, left, _, ending⟩ :=
        @evictUntilFits_spec _ tools policy directory target recordBytes order.reverse []
      rw [evictForCapacity_of_order ordered]
      refine ⟨_, ?_, left, fun keys made => ?_⟩
      · intro listed
        exact (mem_evictionNames ordered (List.mem_of_mem_take listed)).1 rfl
      · rcases ending with ⟨evicted, _⟩ | ⟨⟨reason, refused⟩, _⟩
        · rw [evicted] at made
          cases made
          rfl
        · rw [refused] at made
          cases made

theorem authorize_change {locator : ExternalSessionLocator} {catalog : RepositoryCatalogSnapshot}
    {startupCwd : HostPath} {now : Int} {busy : Bool} :
    LeaseChange tools policy state (.authorize locator catalog startupCwd now busy)
      (.authorized (tryAuthorizeMissingAt tools policy state.directory locator catalog startupCwd
        now busy).1)
      (tryAuthorizeMissingAt tools policy state.directory locator catalog startupCwd now busy).2 := by
  by_cases reached : busy = false ∧
      ∃ scope, scopeForAuthorization locator catalog startupCwd now = .ok scope ∧
        tools.length (tools.toVecPretty scope) ≤ policy.maxEntryBytes ∧
          classifiedRecord tools policy state.directory locator = .ok none
  · obtain ⟨rfl, scope, authorized, small, missing⟩ := reached
    rw [tryAuthorizeMissingAt_of_missing authorized small missing]
    obtain ⟨names, _, left, keysEq⟩ := @evictForCapacity_spec _ tools policy state.directory
      (recordName tools locator) (tools.length (tools.toVecPretty scope)) now.toNat
    cases attempt : evictForCapacity tools policy state.directory (recordName tools locator)
      (tools.length (tools.toVecPretty scope)) now.toNat with
    | mk result remaining =>
        rw [attempt] at left keysEq
        simp only at left keysEq
        subst left
        cases result with
        | error error => exact .evicted
        | ok keys =>
            obtain rfl := keysEq keys rfl
            simp only
            cases replaced : replaceRecord (removeAll state.directory keys)
              (recordName tools locator) (tools.toVecPretty scope) false with
            | error error => exact .evicted
            | ok stored =>
                rw [(replaceRecord_eq_ok.mp replaced).2]
                exact .stored authorized missing
  · obtain ⟨result, attempt, _⟩ := tryAuthorizeMissingAt_of_not_reached reached
    rw [attempt]
    exact .unchanged nofun

theorem perform_change (event : LeaseEvent) :
    LeaseChange tools policy state event (perform tools policy state event).1
      (perform tools policy state event).2.directory := by
  cases event with
  | authorize locator catalog startupCwd now busy => exact authorize_change
  | readReconciled locator catalog busy =>
      simp only [perform]
      split
      · exact .unchanged nofun
      · exact .unchanged nofun
      · split <;> exact .unchanged nofun
  | persist position busy =>
      simp only [perform]
      cases waits : state.pending[position]? with
      | none => exact .unchanged nofun
      | some write =>
          simp only
          cases persisted : tryPersistReconciled tools policy state.directory write.locator
            write.reconciled busy with
          | error error => exact .unchanged nofun
          | ok after =>
              rcases tryPersistReconciled_eq_ok persisted with
                rfl | ⟨existing, holds, sameCwd, sameTime, rfl⟩
              · exact .unchanged nofun
              · exact .rewritten waits holds sameCwd sameTime
  | mark locator mark busy =>
      simp only [perform, settle]
      cases marked : tryMarkDelivery tools policy state.directory locator mark busy with
      | error error => exact .unchanged nofun
      | ok outcome =>
          obtain ⟨first, after⟩ := outcome
          obtain ⟨record, holds, change⟩ := tryMarkDelivery_eq_ok marked
          rcases change with ⟨rfl, rfl⟩ | ⟨rfl, undelivered, rfl, readBack⟩
          · exact .unchanged nofun
          · exact .delivered holds undelivered readBack
  | remove locator busy =>
      simp only [perform, settle]
      cases ended : tryRemove tools policy state.directory locator busy with
      | error error => exact .unchanged nofun
      | ok outcome =>
          obtain ⟨found, after⟩ := outcome
          rcases tryRemove_eq_ok ended with rfl | ⟨⟨record, holds⟩, rfl⟩
          · exact .unchanged nofun
          · exact .ended holds
  | reclaim maxAge now =>
      simp only [perform, settle]
      cases reclaimed : reclaimStaleLeasesAt tools policy state.directory maxAge now with
      | error error => exact .unchanged nofun
      | ok outcome =>
          obtain ⟨report, after⟩ := outcome
          obtain ⟨names, rfl⟩ := reclaimStaleLeasesAt_eq_ok reclaimed
          exact .reclaimed

/-! ### Leases before and after a change -/

theorem lease_of_removeAll {directory : LeaseDirectory Content} {names : List String}
    {locator : ExternalSessionLocator} {record : AuthorizedSessionScope}
    (holds : classifiedRecord tools policy (removeAll directory names) locator =
      .ok (some record)) :
    classifiedRecord tools policy directory locator = .ok (some record) := by
  obtain ⟨node, found, read, own⟩ := lease_at_entry.mp holds
  rw [get?_removeAll] at found
  split at found
  · cases found
  · exact lease_at_entry.mpr ⟨node, found, read, own⟩

theorem lease_of_removeEntry {directory : LeaseDirectory Content} {name : String}
    {locator : ExternalSessionLocator} {record : AuthorizedSessionScope}
    (holds : classifiedRecord tools policy (removeEntry directory name) locator =
      .ok (some record)) :
    classifiedRecord tools policy directory locator = .ok (some record) := by
  change classifiedRecord tools policy (removeAll directory [name]) locator = _ at holds
  exact lease_of_removeAll holds

theorem lease_removeAll_or {directory : LeaseDirectory Content} (names : List String)
    {locator : ExternalSessionLocator} {record : AuthorizedSessionScope}
    (holds : classifiedRecord tools policy directory locator = .ok (some record)) :
    classifiedRecord tools policy (removeAll directory names) locator = .ok (some record) ∨
      (removeAll directory names).get? (recordName tools locator) = none := by
  by_cases removed : recordName tools locator ∈ names
  · exact .inr (by rw [get?_removeAll, if_pos removed])
  · have same : (removeAll directory names).get? (recordName tools locator) =
        directory.get? (recordName tools locator) := by
      rw [get?_removeAll, if_neg removed]
    rw [classifiedRecord_congr same]
    exact .inl holds

theorem classifiedRecord_insert_ne {directory : LeaseDirectory Content} {target : String}
    {node : EntryNode Content} {locator : ExternalSessionLocator}
    (different : recordName tools locator ≠ target) :
    classifiedRecord tools policy (directory.insert target node) locator =
      classifiedRecord tools policy directory locator :=
  classifiedRecord_congr (by rw [BTreeMap.get?_insert, if_neg different])

theorem lease_of_insert {directory : LeaseDirectory Content} {target : String}
    {locator : ExternalSessionLocator} {scope record : AuthorizedSessionScope}
    (same : recordName tools locator = target)
    (holds : classifiedRecord tools policy
      (directory.insert target (.file 1 true (.readable (tools.toVecPretty scope)))) locator =
        .ok (some record)) : record = scope ∧ scope.externalSessionLocator = locator := by
  obtain ⟨node, found, read, own⟩ := lease_at_entry.mp holds
  rw [same, BTreeMap.get?_insert, if_pos rfl] at found
  cases found
  obtain rfl := eq_of_readRecord_toVecPretty read
  exact ⟨rfl, own⟩

theorem lease_unique {directory : LeaseDirectory Content}
    {first second : ExternalSessionLocator} {firstRecord secondRecord : AuthorizedSessionScope}
    (firstHolds : classifiedRecord tools policy directory first = .ok (some firstRecord))
    (secondHolds : classifiedRecord tools policy directory second = .ok (some secondRecord))
    (same : recordName tools first = recordName tools second) :
    first = second ∧ firstRecord = secondRecord := by
  obtain ⟨node, found, read, own⟩ := lease_at_entry.mp firstHolds
  obtain ⟨other, otherFound, otherRead, otherOwn⟩ := lease_at_entry.mp secondHolds
  rw [same] at found read
  rw [found] at otherFound
  cases otherFound
  rw [read] at otherRead
  cases otherRead
  exact ⟨own.symm.trans otherOwn, rfl⟩

theorem Continues.refl (record : AuthorizedSessionScope) : Continues record record :=
  ⟨rfl, rfl, fun _ delivered => delivered⟩

theorem Continues.trans {first second third : AuthorizedSessionScope}
    (earlier : Continues first second) (later : Continues second third) :
    Continues first third :=
  ⟨later.startupCwd.trans earlier.startupCwd, later.issuedAt.trans earlier.issuedAt,
    fun mark delivered => later.delivered mark (earlier.delivered mark delivered)⟩

theorem Continues.deliver (mark : DeliveryMark) (record : AuthorizedSessionScope) :
    Continues record (mark.deliver record) := by
  cases mark <;> refine ⟨rfl, rfl, ?_⟩ <;> intro other delivered <;> cases other <;>
    simp_all [DeliveryMark.select, DeliveryMark.deliver]

@[simp]
theorem DeliveryMark.select_deliver (mark : DeliveryMark) (record : AuthorizedSessionScope) :
    mark.select (mark.deliver record) = true := by
  cases mark <;> rfl

theorem continues_of_change {event : LeaseEvent} {response : LeaseResponse}
    {after : LeaseDirectory Content} {locator : ExternalSessionLocator}
    {first last : AuthorizedSessionScope}
    (orderly : Orderly tools policy state event)
    (change : LeaseChange tools policy state event response after)
    (firstHolds : Holds tools policy state locator first)
    (lastHolds : classifiedRecord tools policy after locator = .ok (some last)) :
    Continues first last := by
  have unchanged : classifiedRecord tools policy state.directory locator = .ok (some last) →
      Continues first last := by
    intro holds
    obtain rfl := (lease_unique firstHolds holds rfl).2
    exact .refl first
  cases change with
  | unchanged quiet => exact unchanged lastHolds
  | evicted => exact unchanged (lease_of_removeAll lastHolds)
  | reclaimed => exact unchanged (lease_of_removeAll lastHolds)
  | ended holds => exact unchanged (lease_of_removeEntry lastHolds)
  | @stored owner catalog startupCwd now scope names prepared missing =>
      by_cases same : recordName tools locator = recordName tools owner
      · by_cases isOwner : locator = owner
        · subst isOwner
          rw [Holds, missing] at firstHolds
          cases firstHolds
        · exact absurd firstHolds (orderly locator isOwner same first)
      · rw [classifiedRecord_insert_ne same] at lastHolds
        exact unchanged (lease_of_removeAll lastHolds)
  | @rewritten position busy write existing waits holds sameCwd sameTime =>
      by_cases same : recordName tools locator = recordName tools write.locator
      · obtain ⟨rfl, rfl⟩ := lease_unique firstHolds holds same
        obtain ⟨rfl, _⟩ := lease_of_insert same lastHolds
        exact ⟨sameCwd.symm, sameTime.symm, orderly write waits first holds sameCwd sameTime⟩
      · rw [classifiedRecord_insert_ne same] at lastHolds
        exact unchanged lastHolds
  | @delivered owner mark busy record holds undelivered readBack =>
      by_cases same : recordName tools locator = recordName tools owner
      · obtain ⟨rfl, rfl⟩ := lease_unique firstHolds holds same
        obtain ⟨rfl, _⟩ := lease_of_insert same lastHolds
        exact .deliver mark first
      · rw [classifiedRecord_insert_ne same] at lastHolds
        exact unchanged lastHolds

/-- A process writes only a copy of the lease that it read. -/
def PendingOwn (state : LeaseState Content) : Prop :=
  ∀ write ∈ state.pending, write.reconciled.externalSessionLocator = write.locator

theorem reconcile_eq_ok {record scope : AuthorizedSessionScope}
    {catalog : RepositoryCatalogSnapshot} {changed : Bool}
    (reconciled : reconcile record catalog = .ok (scope, changed)) :
    scope.externalSessionLocator = record.externalSessionLocator ∧
      scope.startupCwd = record.startupCwd ∧
      derivedDecision catalog record.startupCwd = .ok scope.decision := by
  simp only [reconcile, Result.bind_eq_ok] at reconciled
  obtain ⟨decision, derived, rest⟩ := reconciled
  split at rest
  · rename_i same
    cases rest
    exact ⟨rfl, rfl, same ▸ derived⟩
  · rw [Result.seq_eq_ok, Result.pure_eq_ok] at rest
    obtain ⟨_, written⟩ := rest
    cases written
    exact ⟨rfl, rfl, derived⟩

theorem tryReadReconciled_eq_ok {directory : LeaseDirectory Content}
    {locator : ExternalSessionLocator} {catalog : RepositoryCatalogSnapshot} {busy : Bool}
    {scope : AuthorizedSessionScope} {changed : Bool}
    (read : tryReadReconciled tools policy directory locator catalog busy =
      .ok (some (scope, changed))) :
    ∃ record, classifiedRecord tools policy directory locator = .ok (some record) ∧
      scope.externalSessionLocator = locator ∧ scope.startupCwd = record.startupCwd ∧
      derivedDecision catalog record.startupCwd = .ok scope.decision := by
  simp only [tryReadReconciled, tryRead, Result.bind_eq_ok, Result.exists_unit] at read
  obtain ⟨found, ⟨_, _, classified⟩, rest⟩ := read
  cases found with
  | none => cases rest
  | some record =>
      simp only [Result.bind_eq_ok, Result.pure_eq_ok, Option.some.injEq] at rest
      obtain ⟨_, reconciled, rfl⟩ := rest
      obtain ⟨sameSession, sameCwd, derived⟩ := reconcile_eq_ok reconciled
      obtain ⟨_, own⟩ := classifiedRecord_eq_some.mp classified
      exact ⟨record, classified, sameSession.trans own, sameCwd, derived⟩

theorem pendingOwn_nil {directory : LeaseDirectory Content} : PendingOwn ⟨directory, []⟩ :=
  fun _ waits => absurd waits List.not_mem_nil

theorem pendingOwn_perform {event : LeaseEvent} (own : PendingOwn state) :
    PendingOwn (perform tools policy state event).2 := by
  cases event with
  | authorize | mark | remove | reclaim => exact own
  | readReconciled locator catalog busy =>
      simp only [perform]
      split
      · exact own
      · exact own
      · rename_i scope changed read
        split
        · obtain ⟨_, _, same, _⟩ := tryReadReconciled_eq_ok read
          intro write waits
          rcases List.mem_append.mp waits with before | new
          · exact own write before
          · rw [List.mem_singleton.mp new]
            exact same
        · exact own
  | persist position busy =>
      simp only [perform]
      split
      · exact own
      · split <;> exact fun write waits => own write (List.mem_of_mem_eraseIdx waits)

theorem authorized_of_change {event : LeaseEvent} {response : LeaseResponse}
    {after : LeaseDirectory Content} {locator : ExternalSessionLocator}
    {record : AuthorizedSessionScope} (pendingOwn : PendingOwn state)
    (change : LeaseChange tools policy state event response after)
    (absent : ¬ ∃ held, Holds tools policy state locator held)
    (holds : classifiedRecord tools policy after locator = .ok (some record)) :
    ∃ catalog canonicalStartupCwd now evicted,
      event = .authorize locator catalog canonicalStartupCwd now false ∧
      response = .authorized (.ok ⟨record, true, evicted⟩) ∧
      record.startupCwd = canonicalStartupCwd ∧ record.issuedAtUnixSeconds = now.toNat := by
  cases change with
  | unchanged quiet => exact absurd ⟨record, holds⟩ absent
  | evicted => exact absurd ⟨record, lease_of_removeAll holds⟩ absent
  | reclaimed => exact absurd ⟨record, lease_of_removeAll holds⟩ absent
  | ended _ => exact absurd ⟨record, lease_of_removeEntry holds⟩ absent
  | @stored owner catalog startupCwd now scope names prepared missing =>
      by_cases same : recordName tools locator = recordName tools owner
      · obtain ⟨rfl, own⟩ := lease_of_insert same holds
        obtain ⟨rfl, _⟩ := validate_of_scopeForAuthorization prepared
        subst own
        exact ⟨catalog, startupCwd, now, names, rfl, rfl,
          startup_of_scopeForAuthorization prepared⟩
      · rw [classifiedRecord_insert_ne same] at holds
        exact absurd ⟨record, lease_of_removeAll holds⟩ absent
  | @rewritten position busy write existing waits found sameCwd sameTime =>
      by_cases same : recordName tools locator = recordName tools write.locator
      · obtain ⟨rfl, own⟩ := lease_of_insert same holds
        have writeOwn := pendingOwn write (List.mem_of_getElem? waits)
        rw [own] at writeOwn
        subst writeOwn
        exact absurd ⟨existing, found⟩ absent
      · rw [classifiedRecord_insert_ne same] at holds
        exact absurd ⟨record, holds⟩ absent
  | @delivered owner mark busy stored found undelivered readBack =>
      by_cases same : recordName tools locator = recordName tools owner
      · obtain ⟨rfl, own⟩ := lease_of_insert same holds
        have ownerEq := (lease_at_entry.mp readBack).choose_spec.2.2
        rw [own] at ownerEq
        subst ownerEq
        exact absurd ⟨stored, found⟩ absent
      · rw [classifiedRecord_insert_ne same] at holds
        exact absurd ⟨record, holds⟩ absent

theorem others_of_change {event : LeaseEvent} {response : LeaseResponse}
    {after : LeaseDirectory Content} {session locator : ExternalSessionLocator}
    {record : AuthorizedSessionScope} (orderly : Orderly tools policy state event)
    (change : LeaseChange tools policy state event response after)
    (ofSession : event.session state = some session) (different : locator ≠ session)
    (holds : Holds tools policy state locator record) :
    classifiedRecord tools policy after locator = .ok (some record) ∨
      after.get? (recordName tools locator) = none ∧
        ∃ catalog canonicalStartupCwd now,
          event = .authorize session catalog canonicalStartupCwd now false := by
  cases change with
  | unchanged quiet => exact .inl holds
  | reclaimed => cases ofSession
  | @evicted owner catalog startupCwd now error names =>
      obtain rfl := Option.some.inj ofSession
      exact (lease_removeAll_or names holds).imp_right fun gone =>
        ⟨gone, catalog, startupCwd, now, rfl⟩
  | @stored owner catalog startupCwd now scope names prepared missing =>
      obtain rfl := Option.some.inj ofSession
      have separate : recordName tools locator ≠ recordName tools owner :=
        fun same => orderly locator different same record holds
      rw [classifiedRecord_insert_ne separate, BTreeMap.get?_insert, if_neg separate]
      exact (lease_removeAll_or names holds).imp_right fun gone =>
        ⟨gone, catalog, startupCwd, now, rfl⟩
  | @rewritten position busy write existing waits found sameCwd sameTime =>
      rw [LeaseEvent.session, waits] at ofSession
      obtain rfl := Option.some.inj ofSession
      have separate : recordName tools locator ≠ recordName tools write.locator :=
        fun same => different (lease_unique holds found same).1
      rw [classifiedRecord_insert_ne separate]
      exact .inl holds
  | @delivered owner mark busy stored found undelivered readBack =>
      obtain rfl := Option.some.inj ofSession
      have separate : recordName tools locator ≠ recordName tools owner :=
        fun same => different (lease_unique holds found same).1
      rw [classifiedRecord_insert_ne separate]
      exact .inl holds
  | @ended owner busy removed stored found =>
      obtain rfl := Option.some.inj ofSession
      have separate : recordName tools locator ≠ recordName tools owner :=
        fun same => different (lease_unique holds found same).1
      have kept : (removeEntry state.directory (recordName tools owner)).get?
          (recordName tools locator) = state.directory.get? (recordName tools locator) := by
        rw [get?_removeEntry, if_neg separate]
      rw [classifiedRecord_congr kept]
      exact .inl holds

/-! ### Runs -/

theorem runEvents_append (first second : List LeaseEvent) :
    runEvents tools policy state (first ++ second) =
      runEvents tools policy (runEvents tools policy state first) second :=
  List.foldl_append

theorem runEvents_singleton (event : LeaseEvent) :
    runEvents tools policy state [event] = (perform tools policy state event).2 :=
  rfl

theorem orderlyRun_append {first second : List LeaseEvent} :
    OrderlyRun tools policy state (first ++ second) ↔
      OrderlyRun tools policy state first ∧
        OrderlyRun tools policy (runEvents tools policy state first) second := by
  induction first generalizing state with
  | nil => simp [OrderlyRun, runEvents]
  | cons event first ih =>
      simp only [List.cons_append, OrderlyRun, ih, and_assoc]
      rfl

theorem pendingOwn_runEvents {events : List LeaseEvent} (own : PendingOwn state) :
    PendingOwn (runEvents tools policy state events) := by
  induction events generalizing state with
  | nil => exact own
  | cons event events ih => exact ih (pendingOwn_perform own)

theorem HeldThroughout.start {locator : ExternalSessionLocator} {events : List LeaseEvent}
    (held : HeldThroughout tools policy locator state events) :
    ∃ record, Holds tools policy state locator record := by
  cases events with
  | nil => exact held
  | cons event events => exact held.1

theorem continues_of_held {locator : ExternalSessionLocator} {events : List LeaseEvent}
    {first last : AuthorizedSessionScope}
    (orderly : OrderlyRun tools policy state events)
    (held : HeldThroughout tools policy locator state events)
    (firstHolds : Holds tools policy state locator first)
    (lastHolds : Holds tools policy (runEvents tools policy state events) locator last) :
    Continues first last := by
  induction events generalizing state first with
  | nil =>
      obtain rfl := (lease_unique firstHolds lastHolds rfl).2
      exact .refl first
  | cons event events ih =>
      obtain ⟨middle, middleHolds⟩ := held.2.start
      have step := continues_of_change orderly.1 (perform_change event) firstHolds middleHolds
      exact step.trans (ih orderly.2 held.2 middleHolds lastHolds)

theorem delivered_of_marked {locator : ExternalSessionLocator} {mark : DeliveryMark} {busy : Bool}
    (first : (perform tools policy state (.mark locator mark busy)).1 = .marked (.ok true)) :
    ∃ record, Holds tools policy state locator record ∧ mark.select record = false ∧
      Holds tools policy (perform tools policy state (.mark locator mark busy)).2 locator
        (mark.deliver record) := by
  have change := @perform_change _ tools policy state (.mark locator mark busy)
  rw [first] at change
  unfold Holds
  generalize (perform tools policy state (.mark locator mark busy)).2.directory = after at change
  cases change with
  | unchanged quiet => exact absurd rfl quiet
  | delivered holds undelivered readBack => exact ⟨_, holds, undelivered, readBack⟩

/-- While every reconciled write returns a copy that knows of each delivery, a
store keeps the leases of its sessions. -/
theorem orderly_runs_keep_lease_protocol (tools : LeaseTools Content)
    (policy : AuthorizedSessionScopePolicy) (directory : LeaseDirectory Content)
    (events : List LeaseEvent) (orderly : OrderlyRun tools policy ⟨directory, []⟩ events) :
    LeaseProtocol tools policy ⟨directory, []⟩ events where
  authorized := by
    rintro before event after rfl locator record absent holds
    rw [runEvents_append] at holds
    exact authorized_of_change (pendingOwn_runEvents pendingOwn_nil) (perform_change event) absent
      holds
  held := by
    rintro before between after rfl locator first last held firstHolds lastHolds
    rw [orderlyRun_append, orderlyRun_append] at orderly
    rw [runEvents_append] at lastHolds
    exact continues_of_held orderly.2.1 held firstHolds lastHolds
  marked := by
    rintro before between after locator mark busy otherBusy rfl first held second
    rw [orderlyRun_append] at orderly
    obtain ⟨_, _, rest⟩ := orderly
    rw [orderlyRun_append] at rest
    rw [runEvents_append, runEvents_singleton] at held
    rw [runEvents_append] at second
    obtain ⟨_, _, _, delivered⟩ := delivered_of_marked first
    obtain ⟨record, holds, undelivered, _⟩ := delivered_of_marked second
    have continues := continues_of_held rest.1 held delivered holds
    rw [continues.delivered mark (DeliveryMark.select_deliver mark _)] at undelivered
    cases undelivered
  reconciled := by
    rintro before locator catalog busy after scope rfl read
    simp only [perform] at read
    split at read
    · cases read
    · cases read
    · rename_i reconciled
      cases read
      obtain ⟨record, holds, _, sameCwd, derived⟩ := tryReadReconciled_eq_ok reconciled
      exact ⟨record, holds, sameCwd, derived⟩
  others := by
    rintro before event after rfl session locator record ofSession different holds
    rw [orderlyRun_append] at orderly
    rw [runEvents_append, runEvents_singleton]
    exact others_of_change orderly.2.1 (perform_change event) ofSession different holds

end Changes

/-! ### A delivery that is forgotten -/

def checkoutBelow (name : String) : RepositoryCatalogEntry :=
  ⟨⟨name⟩, [{ sampleCwd with components := sampleCwd.components ++ [name] }]⟩

/-- The catalog after a second repository was added below the directory. -/
def grownCatalog : RepositoryCatalogSnapshot :=
  ⟨[checkoutBelow "first", checkoutBelow "second"], false, none⟩

def enabledLease : AuthorizedSessionScope :=
  ⟨sampleLocator "first", .enabled [⟨"first"⟩], sampleCwd, 100, false, true⟩

def enabledDirectory : LeaseDirectory AuthorizedSessionScope :=
  BTreeMap.empty.insert (recordName plainTools (sampleLocator "first"))
    (.file 1 true (.readable enabledLease))

def enabledState : LeaseState AuthorizedSessionScope :=
  ⟨enabledDirectory, []⟩

def readGrown : LeaseEvent :=
  .readReconciled (sampleLocator "first") grownCatalog false

def markFirst : LeaseEvent :=
  .mark (sampleLocator "first") .intentBootstrapNotified false

/-- The lease is reconciled before the delivery and is orderly. -/
theorem reconciled_before_delivery_keeps_protocol :
    LeaseProtocol plainTools .default enabledState
      [readGrown, .persist 0 false, markFirst, markFirst] := by
  refine orderly_runs_keep_lease_protocol _ _ _ _ ⟨trivial, ?_, trivial, trivial, trivial⟩
  intro write waits existing holds _ _ mark delivered
  have pending : (perform plainTools .default enabledState readGrown).2.pending =
      [⟨sampleLocator "first",
        { enabledLease with decision := .enabled [⟨"first"⟩, ⟨"second"⟩] }⟩] := by
    decide
  have stored : Holds plainTools .default (perform plainTools .default enabledState readGrown).2
      (sampleLocator "first") enabledLease := by
    unfold Holds
    decide
  change (perform plainTools .default enabledState readGrown).2.pending[0]? = some write at waits
  rw [pending] at waits
  cases waits
  obtain rfl := (lease_unique holds stored rfl).2
  cases mark <;> exact delivered

/-- A copy that was read before the delivery is written after it. -/
theorem stale_write_forgets_delivery :
    ¬ LeaseProtocol plainTools .default enabledState
      [readGrown, markFirst, .persist 0 false, markFirst] := by
  intro protocol
  refine protocol.marked [readGrown] [.persist 0 false] [] (sampleLocator "first")
    .intentBootstrapNotified false false rfl ?_ ⟨⟨{ enabledLease with
      intentBootstrapNotified := true }, ?_⟩, ⟨{ enabledLease with
        decision := .enabled [⟨"first"⟩, ⟨"second"⟩] }, ?_⟩⟩ ?_
  · exact congrArg LeaseResponse.marked (by decide)
  · unfold Holds
    decide
  · unfold Holds
    decide
  · exact congrArg LeaseResponse.marked (by decide)

end SharedContext.LocalState
