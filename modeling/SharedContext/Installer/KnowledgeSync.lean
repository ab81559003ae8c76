import SharedContext.Installer.SyncRepository

/-!
# Knowledge sync

The sync merges the fetched work and default branches, validates the merged
head as append-only over the original one, and pushes it.  A push that loses a
race fetches the work branch again; every failure of a merge or a validation
restores the original head.
-/

namespace SharedContext.Installer

open Interruptible (handle refuse)

variable {ι : Type} {graph : CommitGraph ι}

/-! ### The manifest -/

inductive KnowledgeStoreSource
  | localStore
  | remote (defaultBranch workBranch urlDigest : String)

structure InstallManifest where
  installationId : String
  knowledgeStore : KnowledgeStoreSource

/-- The installation of a root: its manifest, and the UUID checks on it. -/
structure Installation where
  manifest : Result (Option InstallManifest)
  isUuid : String → Bool
  newUuid : String

/-- An empty installation ID is replaced by a fresh one. -/
def Installation.installationId (installation : Installation) (manifest : InstallManifest) :
    Result String :=
  if manifest.installationId = "" then pure installation.newUuid
  else if installation.isUuid manifest.installationId then pure manifest.installationId
  else throw (invalid "install manifest contains an invalid installation ID")

/-- The branches of a consistent remote installation. -/
structure SyncBranches where
  defaultBranch : String
  workBranch : String
  urlDigest : String
  different : workBranch ≠ defaultBranch

def Installation.syncBranches (installation : Installation) : Result SyncBranches := do
  match ← installation.manifest with
  | none => throw (invalid "knowledge sync requires an install manifest")
  | some manifest =>
      let installationId ← installation.installationId manifest
      match manifest.knowledgeStore with
      | .localStore =>
          throw ⟨.unsupported, "knowledge sync requires a remotely bootstrapped Knowledge Store"⟩
      | .remote defaultBranch workBranch urlDigest =>
          if consistent : workBranch = "shared-context/" ++ installationId ∧
              workBranch ≠ defaultBranch then
            pure ⟨defaultBranch, workBranch, urlDigest, consistent.2⟩
          else throw (invalid "install manifest Knowledge Store branches are inconsistent")

structure KnowledgeSyncReport where
  baseBranch : String
  workBranch : String
  ahead : Nat
  behind : Nat
  pushed : Bool
  needsMerge : Bool
  deriving DecidableEq

def knowledgeSyncPushAttempts : Nat := 3

/-! ### Steps of the sync -/

section Steps

variable (surroundings : Surroundings graph)

/-- Fail with an error unless a condition holds. -/
def require (condition : Bool) (error : Error) : Sync ι Unit :=
  if condition then pure () else refuse error

def onlyIf (condition : Bool) (program : Sync ι Unit) : Sync ι Unit :=
  if condition then program else pure ()

def verifyRemoteStore (branches : SyncBranches) : Sync ι Unit := do
  let currentBranch ← Git.look surroundings "inspect Knowledge Store branch" fun world =>
    some world.currentBranch
  require (currentBranch = branches.workBranch)
    (invalid "remote Knowledge Store is not on its installation work branch")
  let digest ← Git.look surroundings "inspect Knowledge Store origin" fun world =>
    some world.originDigest
  require (digest = branches.urlDigest)
    (invalid "remote Knowledge Store origin does not match the install manifest")
  let _ ← Git.look surroundings "verify remote default branch" fun world =>
    world.tracking branches.defaultBranch
  let clean ← Git.status surroundings "inspect Knowledge Store status"
  require clean (invalid "remote Knowledge Store worktree is not clean")

def refuseNoting {α : Type} (event : SyncWorld ι → SyncEvent ι) (error : Error) : Sync ι α :=
  Interruptible.act fun world => (.error error, world.note (event world))

def validationChecks (base : Option ι) : Sync ι Unit := do
  askStore surroundings.storeCheck
  askStore surroundings.storeCheck
  onlyIf base.isSome (askStore surroundings.storeCheck)
  let quarantines ← askStore surroundings.quarantines
  require (!quarantines)
    (invariantError "synchronized Knowledge Store contains quarantined Events")
  let clean ← Git.status surroundings "inspect synchronized Knowledge Store status"
  require clean (invalid "synchronized Knowledge Store worktree is not clean")

/-- Objects, Events, the append-only history over a base, quarantine and worktree. -/
def validateSyncHead (base : Option ι) : Sync ι Unit := do
  handle (validationChecks surroundings base)
    (refuseNoting fun world => .rejected base world.head)
  Interruptible.act fun world => (.ok (), world.note (.validated base world.head))

def fetchRequiredBranch (branch : String) : Sync ι Unit := do
  let fetched ← Git.fetch surroundings branch "fetch Knowledge Store default branch"
  require fetched
    (external "fetch Knowledge Store default branch failed; verify read access and retry")

def fetchOptionalWorkBranch (branch : String) : Sync ι (Option ι) := do
  let probe ← Git.lsRemote surroundings "inspect remote Knowledge Store work branch"
  match probe with
  | some 0 =>
      let fetched ← Git.fetch surroundings branch "fetch Knowledge Store work branch"
      require fetched
        (external "fetch Knowledge Store work branch failed; verify read access and retry")
      let head ← Git.look surroundings "inspect fetched Knowledge Store work branch" fun world =>
        world.tracking branch
      pure (some head)
  | some 2 =>
      let removed ← Git.deleteTracking surroundings branch
        "remove stale Knowledge Store work tracking ref"
      require removed (external "remove stale Knowledge Store work tracking ref failed")
      pure none
  | _ =>
      refuse
        (external "inspect remote Knowledge Store work branch failed; verify read access and retry")

def abortMergeIfNeeded : Sync ι Unit := do
  let merging ← Git.mergeHead surroundings "inspect Knowledge Store merge state"
  if merging then
    let aborted ← Git.mergeAbort surroundings "abort Knowledge Store merge"
    require aborted (invariantError "abort Knowledge Store merge failed")
  else pure ()

def mergeSyncRef (branch : String) : Sync ι Unit := do
  let merged ← Git.merge surroundings branch "merge Knowledge Store branch"
  if merged then pure ()
  else
    abortMergeIfNeeded surroundings
    refuse ⟨.conflict,
      "Knowledge Store branch merge conflicted; local sync changes were rolled back"⟩

def rollbackSyncHead (originalHead : ι) : Sync ι Unit := do
  handle
    (do
      abortMergeIfNeeded surroundings
      let reset ← Git.resetHard surroundings originalHead
        "restore Knowledge Store after failed sync"
      require reset (invariantError "restore Knowledge Store after failed sync failed"))
    (refuseNoting fun _ => .unrestored)
  validateSyncHead surroundings none

/-- Merge, and restore the original head when that fails. -/
def mergeOrRollback (originalHead : ι) (merges : Sync ι Unit) : Sync ι Unit :=
  handle merges fun error => do
    rollbackSyncHead surroundings originalHead
    refuse error

variable [DecidableEq ι]

/-- The attempts that are left; the last failed push is not retried. -/
def pushAttempts (originalHead : ι) (workBranch : String) : Nat → Option ι → Sync ι Bool
  | 0, _ => refuse (invariantError "Knowledge Store push retry loop did not terminate")
  | left + 1, remoteWork => do
      let localHead ← Git.look surroundings "inspect synchronized Knowledge Store HEAD"
        fun world => some world.head
      if remoteWork = some localHead then pure false
      else
        let pushed ← Git.push surroundings workBranch "push Knowledge Store work branch"
        if pushed then pure true
        else if left = 0 then
          refuse (external
            "push Knowledge Store work branch failed after 3 attempts; verify write access and retry")
        else
          let remoteWork ← fetchOptionalWorkBranch surroundings workBranch
          mergeOrRollback surroundings originalHead do
            onlyIf remoteWork.isSome (mergeSyncRef surroundings workBranch)
            validateSyncHead surroundings (some originalHead)
          pushAttempts originalHead workBranch left remoteWork

def pushSynchronizedWorkBranch (originalHead : ι) (workBranch : String)
    (remoteWork : Option ι) : Sync ι Bool :=
  pushAttempts surroundings originalHead workBranch knowledgeSyncPushAttempts remoteWork

/-- How far `HEAD` is behind and ahead of a tracking ref. -/
def divergence (branch : String) : Sync ι (Nat × Nat) :=
  Git.look surroundings "measure Knowledge Store branch divergence" fun world =>
    (world.tracking branch).map fun base => surroundings.divergence base world.head

/-- The checks before the first fetch; their result is the original head. -/
def checkBeforeFetch (branches : SyncBranches) : Sync ι ι := do
  verifyRemoteStore surroundings branches
  let pending ← Git.look surroundings "list pending batches" fun world =>
    some world.pendingBatches
  require (pending = 0)
    (invalid "knowledge sync requires all pending batches to be committed or moved aside")
  validateSyncHead surroundings none
  Git.look surroundings "inspect Knowledge Store HEAD" fun world => some world.head

def syncKnowledgeLocked (installation : Installation) : Sync ι KnowledgeSyncReport := do
  let branches ← Interruptible.inspect fun _ => installation.syncBranches
  let originalHead ← checkBeforeFetch surroundings branches
  fetchRequiredBranch surroundings branches.defaultBranch
  let remoteWork ← fetchOptionalWorkBranch surroundings branches.workBranch
  mergeOrRollback surroundings originalHead do
    onlyIf remoteWork.isSome (mergeSyncRef surroundings branches.workBranch)
    mergeSyncRef surroundings branches.defaultBranch
    validateSyncHead surroundings (some originalHead)
  let pushed ← pushSynchronizedWorkBranch surroundings originalHead branches.workBranch remoteWork
  let (behind, ahead) ← divergence surroundings branches.defaultBranch
  require (behind = 0)
    (invariantError "synchronized work branch is still behind the fetched default branch")
  pure ⟨branches.defaultBranch, branches.workBranch, ahead, behind, pushed, decide (0 < ahead)⟩

end Steps

end SharedContext.Installer
