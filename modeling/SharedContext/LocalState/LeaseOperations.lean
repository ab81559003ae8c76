import SharedContext.LocalState.Authorization

/-!
# Operations on stored leases

A reconciled read takes a copy of the lease under a shared lock and derives its
decision from the catalog again.  When the decision changed, the whole copy is
written back later, under an exclusive lock that other operations may have held
in between.
-/

namespace SharedContext.LocalState

section Operations

variable {Content : Type} (tools : LeaseTools Content)

def verifyRecordLocator (record : AuthorizedSessionScope) (expected : ExternalSessionLocator) :
    Result Unit :=
  Result.require (record.externalSessionLocator = expected)
    (invariant "AuthorizedSessionScope key and ExternalSessionLocator disagree")

/-- Take a lock unless another process holds it. -/
def takeLock (busy : Bool) : Result Unit :=
  Result.require (busy = false) lockBusy

/-! ### Reconciled reads -/

/-- Derive the decision of a lease again; `true` when it changed. -/
def reconcile (record : AuthorizedSessionScope) (catalog : RepositoryCatalogSnapshot) :
    Result (AuthorizedSessionScope × Bool) := do
  let decision ← derivedDecision catalog record.startupCwd
  if decision = record.decision then pure (record, false)
  else do
    let reconciled := { record with decision := decision }
    reconciled.validate
    pure (reconciled, true)

def tryRead (policy : AuthorizedSessionScopePolicy) (directory : LeaseDirectory Content)
    (locator : ExternalSessionLocator) (busy : Bool) : Result (Option AuthorizedSessionScope) := do
  validateLocator locator
  takeLock busy
  classifiedRecord tools policy directory locator

/-- The part of a reconciled read before its write. -/
def tryReadReconciled (policy : AuthorizedSessionScopePolicy) (directory : LeaseDirectory Content)
    (locator : ExternalSessionLocator) (catalog : RepositoryCatalogSnapshot) (busy : Bool) :
    Result (Option (AuthorizedSessionScope × Bool)) := do
  match ← tryRead tools policy directory locator busy with
  | none => pure none
  | some record => do
      let reconciled ← reconcile record catalog
      pure (some reconciled)

def tryPersistReconciled (policy : AuthorizedSessionScopePolicy)
    (directory : LeaseDirectory Content) (locator : ExternalSessionLocator)
    (reconciled : AuthorizedSessionScope) (busy : Bool) : Result (LeaseDirectory Content) := do
  let bytes ← serializeScope tools policy reconciled
  takeLock busy
  let path := recordName tools locator
  match ← classifiedRecord tools policy directory locator with
  | none => pure directory
  | some existing =>
      if existing.startupCwd ≠ reconciled.startupCwd ∨
          existing.issuedAtUnixSeconds ≠ reconciled.issuedAtUnixSeconds then
        pure directory
      else do
        validateNewUsage policy (usage tools directory (some path)) false (tools.length bytes)
        replaceRecord directory path bytes true

/-! ### Delivery marks -/

inductive DeliveryMark
  | intentBootstrapNotified
  | activationMarkerDelivered
  deriving DecidableEq, Repr

namespace DeliveryMark

def select : DeliveryMark → AuthorizedSessionScope → Bool
  | intentBootstrapNotified, record => record.intentBootstrapNotified
  | activationMarkerDelivered, record => record.activationMarkerDelivered

def deliver : DeliveryMark → AuthorizedSessionScope → AuthorizedSessionScope
  | intentBootstrapNotified, record => { record with intentBootstrapNotified := true }
  | activationMarkerDelivered, record => { record with activationMarkerDelivered := true }

end DeliveryMark

/-- Record a delivery; `true` for the first one. -/
def tryMarkDelivery (policy : AuthorizedSessionScopePolicy) (directory : LeaseDirectory Content)
    (locator : ExternalSessionLocator) (mark : DeliveryMark) (busy : Bool) :
    Result (Bool × LeaseDirectory Content) := do
  validateLocator locator
  takeLock busy
  let path := recordName tools locator
  match ← readOptionalRecord tools policy directory path with
  | none => throw (invalid "AuthorizedSessionScope is missing")
  | some record => do
      verifyRecordLocator record locator
      if record.decision.isEnabled = false ∨ mark.select record = true then
        pure (false, directory)
      else do
        let delivered := mark.deliver record
        delivered.validate
        let bytes ← serializeScope tools policy delivered
        validateNewUsage policy (usage tools directory (some path)) false (tools.length bytes)
        let stored ← replaceRecord directory path bytes true
        pure (true, stored)

/-! ### Removal -/

/-- Remove the lease of a session; `true` when there was one. -/
def removeExactUnlocked (policy : AuthorizedSessionScopePolicy)
    (directory : LeaseDirectory Content) (locator : ExternalSessionLocator) :
    Result (Bool × LeaseDirectory Content) := do
  let path := recordName tools locator
  match ← readOptionalRecord tools policy directory path with
  | none => pure (false, directory)
  | some record => do
      verifyRecordLocator record locator
      pure (true, removeEntry directory path)

def tryRemove (policy : AuthorizedSessionScopePolicy) (directory : LeaseDirectory Content)
    (locator : ExternalSessionLocator) (busy : Bool) : Result (Bool × LeaseDirectory Content) := do
  validateLocator locator
  takeLock busy
  removeExactUnlocked tools policy directory locator

inductive EntryDisposition
  | live
  | stale
  | unreadable
  | unsafeEntry
  deriving DecidableEq, Repr

structure ClassifiedEntry where
  entryKey : String
  bytes : Nat
  disposition : EntryDisposition
  deriving DecidableEq, Repr

def classifyEntry (policy : AuthorizedSessionScopePolicy) (threshold : Nat)
    (entry : String × EntryNode Content) : Result ClassifiedEntry :=
  if entry.2.isSafe = false then pure ⟨entry.1, entry.2.length tools, .unsafeEntry⟩
  else
    match readRecord tools policy entry.1 entry.2 with
    | .ok record =>
        if record.issuedAtUnixSeconds ≤ threshold then
          pure ⟨entry.1, entry.2.length tools, .stale⟩
        else pure ⟨entry.1, entry.2.length tools, .live⟩
    | .error error =>
        if error.kind = .io then throw error
        else pure ⟨entry.1, entry.2.length tools, .unreadable⟩

def classifyEntries (policy : AuthorizedSessionScopePolicy) (directory : LeaseDirectory Content)
    (maxAge : Nat) (now : Int) : Result (List ClassifiedEntry) := do
  let now ← unixSeconds now
  (sortedEntries directory).mapM (classifyEntry tools policy (now - maxAge))

structure AuthorizedSessionScopeReclaim where
  removedEntryKeys : List String
  removedUnreadableEntryKeys : List String
  reclaimedBytes : Nat
  retainedEntries : Nat
  diagnostics : List String
  deriving DecidableEq, Repr

/-- Remove one entry, or report why it stays. -/
def reclaimEntry (progress : AuthorizedSessionScopeReclaim × LeaseDirectory Content)
    (entry : ClassifiedEntry) : AuthorizedSessionScopeReclaim × LeaseDirectory Content :=
  let report := progress.1
  match entry.disposition with
  | .stale =>
      ({ report with
        removedEntryKeys := report.removedEntryKeys ++ [entry.entryKey]
        reclaimedBytes := saturatingAdd report.reclaimedBytes entry.bytes },
        removeEntry progress.2 entry.entryKey)
  | .unreadable =>
      ({ report with
        removedUnreadableEntryKeys := report.removedUnreadableEntryKeys ++ [entry.entryKey]
        reclaimedBytes := saturatingAdd report.reclaimedBytes entry.bytes },
        removeEntry progress.2 entry.entryKey)
  | .unsafeEntry =>
      ({ report with
        diagnostics := report.diagnostics ++ [entry.entryKey]
        retainedEntries := saturatingAdd report.retainedEntries 1 }, progress.2)
  | .live =>
      ({ report with retainedEntries := saturatingAdd report.retainedEntries 1 }, progress.2)

/-- Remove the stale leases and the entries that can never authorize again. -/
def reclaimStaleLeasesAt (policy : AuthorizedSessionScopePolicy)
    (directory : LeaseDirectory Content) (maxAge : Nat) (now : Int) :
    Result (AuthorizedSessionScopeReclaim × LeaseDirectory Content) := do
  let classified ← classifyEntries tools policy directory maxAge now
  pure (classified.foldl reclaimEntry (⟨[], [], 0, 0, []⟩, directory))

end Operations

/-! ### What the operations write -/

section Written

variable {Content : Type} {tools : LeaseTools Content} {policy : AuthorizedSessionScopePolicy}
  {directory after : LeaseDirectory Content} {locator : ExternalSessionLocator} {busy : Bool}

theorem eq_of_readRecord_toVecPretty {scope record : AuthorizedSessionScope} {name : String}
    (read : readRecord tools policy name (.file 1 true (.readable (tools.toVecPretty scope))) =
      .ok record) : record = scope := by
  unfold readRecord at read
  simp only [Result.bind_eq_ok, Result.exists_unit, Result.require_eq_ok,
    tools.fromSlice_toVecPretty, Result.pure_eq_ok] at read
  obtain ⟨_, _, _, _, same⟩ := read
  exact same.symm

theorem replaceRecord_replacing {target : String} {bytes : Content}
    (replaced : replaceRecord directory target bytes true = .ok after) :
    after = directory.insert target (.file 1 true (.readable bytes)) := by
  unfold replaceRecord at replaced
  rw [if_pos rfl] at replaced
  split at replaced
  · rename_i found
    simp only [found, Result.pure_eq_ok] at replaced
    exact replaced.symm
  · simp [Result.bind_eq_ok] at replaced
  · simp [Result.bind_eq_ok] at replaced

theorem lease_at_entry {record : AuthorizedSessionScope} :
    classifiedRecord tools policy directory locator = .ok (some record) ↔
      ∃ node, directory.get? (recordName tools locator) = some node ∧
        readRecord tools policy (recordName tools locator) node = .ok record ∧
          record.externalSessionLocator = locator := by
  rw [classifiedRecord_eq_some, readOptionalRecord_eq_some]
  constructor
  · rintro ⟨⟨node, found, read⟩, own⟩
    exact ⟨node, found, read, own⟩
  · rintro ⟨node, found, read, own⟩
    exact ⟨⟨node, found, read⟩, own⟩

theorem tryPersistReconciled_eq_ok {reconciled : AuthorizedSessionScope}
    (persisted : tryPersistReconciled tools policy directory locator reconciled busy =
      .ok after) :
    after = directory ∨
      ∃ existing, classifiedRecord tools policy directory locator = .ok (some existing) ∧
        existing.startupCwd = reconciled.startupCwd ∧
        existing.issuedAtUnixSeconds = reconciled.issuedAtUnixSeconds ∧
        after = directory.insert (recordName tools locator)
          (.file 1 true (.readable (tools.toVecPretty reconciled))) := by
  simp only [tryPersistReconciled, Result.bind_eq_ok, Result.exists_unit,
    serializeScope_eq_ok] at persisted
  obtain ⟨_, ⟨_, rfl⟩, _, found, classified, rest⟩ := persisted
  cases found with
  | none => exact .inl (Result.pure_eq_ok.mp rest).symm
  | some existing =>
      simp only at rest
      split at rest
      · exact .inl (Result.pure_eq_ok.mp rest).symm
      · rename_i same
        simp only [not_or, Decidable.not_not] at same
        rw [Result.seq_eq_ok] at rest
        exact .inr ⟨existing, classified, same.1, same.2, replaceRecord_replacing rest.2⟩

theorem tryMarkDelivery_eq_ok {mark : DeliveryMark} {first : Bool}
    (marked : tryMarkDelivery tools policy directory locator mark busy = .ok (first, after)) :
    ∃ record, classifiedRecord tools policy directory locator = .ok (some record) ∧
      (first = false ∧ after = directory ∨
        first = true ∧ mark.select record = false ∧
          after = directory.insert (recordName tools locator)
            (.file 1 true (.readable (tools.toVecPretty (mark.deliver record)))) ∧
          classifiedRecord tools policy after locator = .ok (some (mark.deliver record))) := by
  simp only [tryMarkDelivery, Result.bind_eq_ok, Result.exists_unit] at marked
  obtain ⟨_, _, found, read, rest⟩ := marked
  cases found with
  | none => cases rest
  | some record =>
      simp only [verifyRecordLocator, Result.seq_eq_ok, Result.require_eq_ok] at rest
      obtain ⟨own, rest⟩ := rest
      refine ⟨record, classifiedRecord_eq_some.mpr ⟨read, own⟩, ?_⟩
      split at rest
      · cases rest
        exact .inl ⟨rfl, rfl⟩
      · rename_i undelivered
        simp only [not_or, Bool.not_eq_true] at undelivered
        simp only [Result.bind_eq_ok, Result.exists_unit, serializeScope_eq_ok,
          Result.pure_eq_ok, Prod.mk.injEq] at rest
        obtain ⟨valid, _, ⟨small, rfl⟩, _, stored, replaced, rfl, rfl⟩ := rest
        have written := replaceRecord_replacing replaced
        have same : (mark.deliver record).externalSessionLocator = locator := by
          cases mark <;> exact own
        refine .inr ⟨rfl, undelivered.2, written, ?_⟩
        rw [written, ← same]
        exact classifiedRecord_insert valid small

theorem tryRemove_eq_ok {removed : Bool}
    (ended : tryRemove tools policy directory locator busy = .ok (removed, after)) :
    after = directory ∨ (∃ record,
      classifiedRecord tools policy directory locator = .ok (some record)) ∧
        after = removeEntry directory (recordName tools locator) := by
  simp only [tryRemove, removeExactUnlocked, Result.bind_eq_ok, Result.exists_unit] at ended
  obtain ⟨_, _, found, read, rest⟩ := ended
  cases found with
  | none =>
      cases rest
      exact .inl rfl
  | some record =>
      simp only [verifyRecordLocator, Result.seq_eq_ok, Result.require_eq_ok,
        Result.pure_eq_ok, Prod.mk.injEq] at rest
      obtain ⟨own, _, rfl⟩ := rest
      exact .inr ⟨⟨record, classifiedRecord_eq_some.mpr ⟨read, own⟩⟩, rfl⟩

theorem removeAll_of_reclaimEntry (entries : List ClassifiedEntry)
    (progress : AuthorizedSessionScopeReclaim × LeaseDirectory Content) :
    ∃ names, (entries.foldl reclaimEntry progress).2 = removeAll progress.2 names := by
  induction entries generalizing progress with
  | nil => exact ⟨[], rfl⟩
  | cons entry entries ih =>
      obtain ⟨names, left⟩ := ih (reclaimEntry progress entry)
      rw [List.foldl_cons, left]
      unfold reclaimEntry
      cases entry.disposition with
      | live | unsafeEntry => exact ⟨names, rfl⟩
      | stale | unreadable => exact ⟨entry.entryKey :: names, rfl⟩

theorem reclaimStaleLeasesAt_eq_ok {maxAge : Nat} {now : Int}
    {report : AuthorizedSessionScopeReclaim}
    (reclaimed : reclaimStaleLeasesAt tools policy directory maxAge now = .ok (report, after)) :
    ∃ names, after = removeAll directory names := by
  simp only [reclaimStaleLeasesAt, Result.bind_eq_ok, Result.pure_eq_ok] at reclaimed
  obtain ⟨classified, _, folded⟩ := reclaimed
  have left := removeAll_of_reclaimEntry classified (⟨[], [], 0, 0, []⟩, directory)
  rw [folded] at left
  exact left

end Written

end SharedContext.LocalState
