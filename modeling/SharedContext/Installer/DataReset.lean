import Mathlib.Logic.Function.Basic
import SharedContext.Domain.Validation
import SharedContext.Library.Interruptible

/-!
# Data reset

A reset moves every active target into a backup and installs a pristine one,
under a marker that makes the next start undo an unfinished reset.  The process
may die before each file operation, and each operation may fail.
-/

namespace SharedContext.Installer

/-! ### The disk -/

inductive NodeKind
  | file
  | directory
  | symlink
  deriving DecidableEq

def resetRelativeTargets : List String :=
  ["repository", "config.toml"] ++
    (["index.sqlite", "runtime.sqlite", "engineering.sqlite", "repository-registry.sqlite",
      "semantic.sqlite"].flatMap fun database =>
        ["", "-wal", "-shm"].map fun suffix => "state/" ++ database ++ suffix) ++
    ["state/pending", "state/pending-aside", "state/authorized-session-scopes", "state/capture",
      "state/capture.lock", "state/capture-metadata.json"]

/-- One target of a reset; its paths follow from its name. -/
structure ResetEntry where
  target : String
  originalPresent : Bool
  stagedPresent : Bool
  deriving DecidableEq

structure DataResetJournal where
  version : Nat
  id : String
  phase : String
  complete : Bool
  appliedEntries : Nat
  entries : List ResetEntry
  deriving DecidableEq

/-- The trees at the targets of the root, of the backup and of the staging
root, the journal of the backup, and the marker under the root. -/
structure ResetDisk (α : Type) where
  active : String → Option α
  backup : String → Option α
  staged : String → Option α
  journal : Option DataResetJournal
  marker : Option DataResetJournal
  clock : Nat

/-- What the rest of the world contributes to a reset. -/
structure ResetSurroundings (α : Type) where
  kind : α → NodeKind
  /-- What is left of a directory at each point of its removal. -/
  remains : α → List α
  /-- The tree that the staging builds at a target. -/
  pristine : String → Option α
  /-- The targets that the smoke test touches, with what it leaves there. -/
  smoke : List (String × Option α)
  isUuid : String → Bool
  newUuid : String
  newUuidLaw : isUuid newUuid = true

variable {α : Type}

/-- Programs over the disk; every seam is the time before a file operation. -/
abbrev Reset (α : Type) := Interruptible Unit Error (ResetDisk α)

def ResetDisk.tick (disk : ResetDisk α) : ResetDisk α :=
  { disk with clock := disk.clock + 1 }

/-! ### File operations -/

section Operations

variable (surroundings : ResetSurroundings α) (fails : Nat → Option Error)

/-- One file operation: the process may die before it, and it may fail at a time. -/
def fileOperation (step : ResetDisk α → ResetDisk α) : Reset α Unit := do
  Interruptible.seam ()
  Interruptible.act fun disk =>
    match fails disk.clock with
    | some error => (.error error, disk.tick)
    | none => (.ok (), (step disk).tick)

/-- An operation that no target, journal or marker depends on. -/
def otherOperation : Reset α Unit :=
  fileOperation fails id

/-- Whether a path exists; it must not be a symlink. -/
def nodePresent : Option α → Result Bool
  | none => .ok false
  | some node =>
      if surroundings.kind node = .symlink then
        .error (invalid "data reset path must not be a symlink")
      else .ok true

def resetPathPresent (path : ResetDisk α → Option α) : Reset α Bool :=
  Interruptible.inspect fun disk => nodePresent surroundings (path disk)

/-- A temporary file is written, renamed into place and synchronized. -/
def atomicWrite (step : ResetDisk α → ResetDisk α) : Reset α Unit := do
  otherOperation fails
  fileOperation fails step
  otherOperation fails

def setActive (target : String) (node : Option α) (disk : ResetDisk α) : ResetDisk α :=
  { disk with active := Function.update disk.active target node }

/-- What is left of a node while it is removed; a file goes at once. -/
def leftovers (node : α) : List α :=
  if surroundings.kind node = .directory then surroundings.remains node else []

def removeAny (target : String) : Reset α Unit := do
  let node ← Interruptible.inspect fun disk => .ok (disk.active target)
  match node with
  | none => pure ()
  | some node =>
      Interruptible.forEach (leftovers surroundings node) fun left =>
        fileOperation fails (setActive target (some left))
      fileOperation fails (setActive target none)

/-- `fs::rename` of an active target into the backup. -/
def moveToBackup (target : String) (disk : ResetDisk α) : ResetDisk α :=
  { disk with
    active := Function.update disk.active target none
    backup := Function.update disk.backup target (disk.active target) }

/-- `fs::rename` of a staged target into its place. -/
def installStaged (target : String) (disk : ResetDisk α) : ResetDisk α :=
  { disk with
    active := Function.update disk.active target (disk.staged target)
    staged := Function.update disk.staged target none }

/-- `fs::rename` of a backup back into its place. -/
def restoreBackup (target : String) (disk : ResetDisk α) : ResetDisk α :=
  { disk with
    active := Function.update disk.active target (disk.backup target)
    backup := Function.update disk.backup target none }

/-! ### The journal -/

def resetJournalVersion : Nat := 1

def validateResetJournal (journal : DataResetJournal) : Result Unit := do
  Result.require (journal.version = resetJournalVersion)
    (invalid "data reset journal version or root is invalid")
  Result.require ("reset-".toList.isPrefixOf journal.id.toList = true)
    (invalid "data reset journal ID prefix is invalid")
  Result.require (surroundings.isUuid (String.ofList (journal.id.toList.drop 6)) = true)
    (invalid "data reset journal ID is invalid")
  Result.require (journal.entries.length = resetRelativeTargets.length)
    (invalid "data reset journal paths are invalid")
  Result.require (journal.entries.map ResetEntry.target = resetRelativeTargets)
    (invalid "data reset journal target is invalid")
  Result.require (journal.appliedEntries ≤ journal.entries.length)
    (invalid "data reset journal applied count is invalid")

/-- The journal goes to the backup first, and to the marker when that is active. -/
def persistResetJournal (journal : DataResetJournal) (activeMarker : Bool) : Reset α Unit := do
  Interruptible.inspect fun _ => validateResetJournal surroundings journal
  atomicWrite fails fun disk => { disk with journal := some journal }
  if activeMarker then
    atomicWrite fails fun disk => { disk with marker := some journal }
  else pure ()

def removeResetMarker : Reset α Unit := do
  let marker ← Interruptible.inspect fun disk => .ok disk.marker
  match marker with
  | none => pure ()
  | some _ =>
      fileOperation fails fun disk => { disk with marker := none }
      otherOperation fails

/-! ### Recovery -/

def restoreEntry (entry : ResetEntry) : Reset α Unit := do
  let present ← resetPathPresent surroundings fun disk => disk.backup entry.target
  if present then
    removeAny surroundings fails entry.target
    otherOperation fails
    fileOperation fails (restoreBackup entry.target)
    otherOperation fails
    otherOperation fails
  else if entry.originalPresent then pure ()
  else removeAny surroundings fails entry.target

/-- Undo an unfinished reset; the result is the ID of its backup. -/
def recoverIncompleteDataReset : Reset α (Option String) := do
  let marker ← Interruptible.inspect fun disk => .ok disk.marker
  match marker with
  | none => pure none
  | some journal =>
      Interruptible.inspect fun _ => validateResetJournal surroundings journal
      if journal.complete then
        removeResetMarker fails
        pure (some journal.id)
      else
        Interruptible.forEach journal.entries.reverse (restoreEntry surroundings fails)
        persistResetJournal surroundings fails
          { journal with phase := "recovered_rollback", complete := true } false
        removeResetMarker fails
        pure (some journal.id)

/-! ### The reset -/

def validateResetActiveTarget (target : String) : Reset α Unit :=
  Interruptible.inspect fun disk =>
    match disk.active target with
    | none => .ok ()
    | some node => do
        Result.require (surroundings.kind node ≠ .symlink)
          (invalid "data reset target must not be a symlink")
        Result.require (target = "repository" → surroundings.kind node = .directory)
          (invalid "data reset repository target must be a directory")
        Result.require (target = "config.toml" → surroundings.kind node = .file)
          (invalid "data reset config target must be a regular file")

def buildResetEntry (target : String) : Reset α ResetEntry := do
  let originalPresent ← resetPathPresent surroundings fun disk => disk.active target
  let stagedPresent ← resetPathPresent surroundings fun disk => disk.staged target
  pure ⟨target, originalPresent, stagedPresent⟩

/-- Move the original of one entry away and install its replacement. -/
def swapOriginal (entry : ResetEntry) : Reset α Unit :=
  if entry.originalPresent then do
    otherOperation fails
    fileOperation fails (moveToBackup entry.target)
    otherOperation fails
    otherOperation fails
  else pure ()

def swapStaged (entry : ResetEntry) : Reset α Unit :=
  if entry.stagedPresent then do
    otherOperation fails
    fileOperation fails (installStaged entry.target)
    otherOperation fails
    otherOperation fails
  else pure ()

/-- The journal's phase is written at more points of the first entry. -/
def persistFirst (journal : DataResetJournal) (index : Nat) (phase : String) : Reset α Unit :=
  if index = 0 then persistResetJournal surroundings fails { journal with phase := phase } true
  else pure ()

def swapEntries (journal : DataResetJournal) : Nat → List ResetEntry → Reset α Unit
  | _, [] => pure ()
  | index, entry :: rest => do
      swapOriginal fails entry
      persistFirst surroundings fails journal index "first_original_moved"
      swapStaged fails entry
      persistFirst surroundings fails journal index "first_replacement_installed"
      let applied :=
        { journal with appliedEntries := index + 1, phase := s!"applied_{index + 1}" }
      persistResetJournal surroundings fails applied true
      swapEntries applied (index + 1) rest

/-- Replaces all targets; the result is the list of those that were cleared. -/
def resetDataLocked : Reset α (List String) := do
  Interruptible.forEach resetRelativeTargets (validateResetActiveTarget surroundings)
  otherOperation fails
  let id := "reset-" ++ surroundings.newUuid
  otherOperation fails
  Interruptible.forEach resetRelativeTargets fun target =>
    fileOperation fails fun disk =>
      { disk with
        staged := Function.update disk.staged target (surroundings.pristine target) }
  let entries ← Interruptible.gather resetRelativeTargets (buildResetEntry surroundings)
  let journal : DataResetJournal :=
    { version := resetJournalVersion
      id := id
      phase := "prepared"
      complete := false
      appliedEntries := 0
      entries := entries }
  persistResetJournal surroundings fails journal true
  swapEntries surroundings fails journal 0 entries
  let swapped := { journal with appliedEntries := entries.length, phase := "swapped" }
  persistResetJournal surroundings fails swapped true
  Interruptible.forEach surroundings.smoke fun (target, node) =>
    fileOperation fails (setActive target node)
  otherOperation fails
  persistResetJournal surroundings fails { swapped with phase := "smoke_tested" } true
  persistResetJournal surroundings fails { swapped with phase := "complete", complete := true } false
  removeResetMarker fails
  pure ((entries.filter ResetEntry.originalPresent).map ResetEntry.target)

def resetData : Reset α (List String) :=
  Interruptible.handle (resetDataLocked surroundings fails) fun error => do
    let _ ← Interruptible.handle (recoverIncompleteDataReset surroundings fails) fun rollback =>
      Interruptible.refuse
        ⟨.invariantViolation,
          s!"{error.message}; reset rollback also failed: {rollback.message}"⟩
    Interruptible.refuse error

end Operations

end SharedContext.Installer
