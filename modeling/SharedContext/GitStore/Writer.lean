import SharedContext.GitStore.Git
import SharedContext.Library.Interruptible

/-!
# The writer

The append protocol: journal the batch, reconcile it with `HEAD`, create the
missing files, stage them, commit them and drop the journal.  Every step can
be resumed from the journal, and the process may die at each crash seam.
-/

namespace SharedContext

/-- Durable boundaries exposed for deterministic crash testing. -/
inductive CrashSeam
  | afterJournal
  | beforeCreate
  | afterCreate
  | beforeAdd
  | afterAdd
  | beforeCommit
  | afterCommit
  | beforeCommitOid
  | afterCommitOid
  | beforeIndex
  | afterIndex
  | beforeCleanup
  | afterCleanup
  deriving DecidableEq, Repr

/-- A writer program. -/
abbrev Writer (α : Type) := Interruptible CrashSeam Error Store α

open Interruptible (seam refuse inspect update forEach gather)

/-- Stable reference returned for a content-addressed object. -/
structure ObjectRef where
  sha256 : Digest
  path : RepositoryPath
  size : Nat
  deriving DecidableEq, Repr

structure AppendOutcome where
  batchId : BatchId
  eventId : EventId
  eventPath : RepositoryPath
  commitOid : CommitOid
  objects : List ObjectRef
  recovered : Bool
  deriving DecidableEq, Repr

def outcome (journal : Journal) (eventPath : RepositoryPath) (commitOid : CommitOid)
    (recovered : Bool) : AppendOutcome where
  batchId := journal.batchId
  eventId := journal.eventId
  eventPath := eventPath
  commitOid := commitOid
  objects := (journal.files.filter fun file => file.kind = .object).map fun file =>
    ⟨file.sha256, file.targetPath, file.size⟩
  recovered := recovered

/-! ### The pending directory -/

namespace Store

/-- Atomically replace the journal of an existing pending directory. -/
def writeJournal (store : Store) (journal : Journal) : Result Store := do
  validateJournal journal
  match store.pending.get? journal.batchId with
  | some dir =>
      pure { store with pending := store.pending.insert journal.batchId { dir with journal } }
  | none => throw ⟨.io, "create new file: pending directory does not exist"⟩

def cleanup (store : Store) (journal : Journal) : Store :=
  { store with pending := store.pending.filter fun id _ => id ≠ journal.batchId }

/-- The pending journals in the order of their directory names. -/
def readJournals (store : Store) : List Journal :=
  store.pending.values.map PendingDir.journal

def readJournal (store : Store) (batchId : BatchId) : Result Journal :=
  match store.pending.get? batchId with
  | some dir => pure dir.journal
  | none => throw (invalid s!"pending batch {batchId} does not exist")

variable (sha256 : Bytes → Digest) (store : Store)

def readPayload (journal : Journal) (file : PendingFile) : Result Bytes :=
  match (store.pending.get? journal.batchId).bind fun dir =>
      dir.payloads.get? file.payloadFile with
  | some bytes => do
      Result.require (bytes.length = file.size ∧ sha256 bytes = file.sha256)
        (invariantError s!"pending payload does not match journal: {file.payloadFile}")
      pure bytes
  | none => throw ⟨.io, "inspect pending payload: not found"⟩

def readPayloads (journal : Journal) : Result (List (RepositoryPath × Bytes)) :=
  journal.files.mapM fun file => do
    let payload ← store.readPayload sha256 journal file
    pure (file.targetPath, payload)

/-! ### Guards -/

/-- `HEAD` agrees with the journal on every path it already has. -/
def checkHead (journal : Journal) : Result Unit :=
  journal.files.forM fun file =>
    match store.headFile file.targetPath with
    | some bytes => Result.require (sha256 bytes = file.sha256)
        (invariantError s!"HEAD path {file.targetPath} does not match pending digest")
    | none => pure ()

/-- The journal's files that `HEAD` already has. -/
def headMatches (journal : Journal) : Finset RepositoryPath :=
  (journal.targetPaths.filter fun path => (store.headFile path).isSome).toFinset

/-- Files reused from `HEAD` were already in the tree the batch started from. -/
def checkBaseline (journal : Journal) (headMatches : Finset RepositoryPath)
    (baseHeadOid : CommitOid) : Result Unit :=
  journal.files.forM fun file =>
    Result.require (file.targetPath ∈ headMatches →
        (store.fileAt baseHeadOid file.targetPath).map sha256 = some file.sha256)
      (invariantError
        s!"batch {journal.batchId} is only partially present in HEAD: {file.targetPath} was not reusable from its base tree")

/-- Only additions that the journal declares may differ from `HEAD`. -/
def rejectManagedChanges (journal : Journal) : Result Unit :=
  Result.require (∀ path ∈ store.changedFromHead.keys,
      store.changedFromHead.get? path = some .added ∧ path ∈ journal.targetPaths)
    (invariantError "append-only guard rejected managed M/D/R or foreign change")

/-- The index holds a path with the digest the journal declares. -/
def stagedAsDeclared (journal : Journal) (path : RepositoryPath) : Bool :=
  match journal.files.find? (fun file => decide (file.targetPath = path)),
      store.indexFile path with
  | some file, some indexed => decide (sha256 indexed = file.sha256)
  | _, _ => false

/-- Only allowed additions with the declared digests may be staged. -/
def rejectForeignStaged (allowed : Finset RepositoryPath) (journal : Journal) : Result Unit :=
  Result.require (∀ path ∈ store.stagedFromHead.keys,
      store.stagedFromHead.get? path = some .added ∧ path ∈ allowed ∧
        store.stagedAsDeclared sha256 journal path = true)
    (invariantError "foreign staged path rejected")

def verifyExactStaged (expected : Finset RepositoryPath) (journal : Journal) : Result Unit := do
  Result.require ((∀ path ∈ store.stagedFromHead.keys,
      store.stagedFromHead.get? path = some .added) ∧ store.stagedFromHead.keys = expected)
    (invariantError s!"staged diff does not exactly match batch {journal.batchId}")
  store.rejectForeignStaged sha256 expected journal

end Store

/-! ### Committing one journal -/

section Commit

variable (sha256 : Bytes → Digest)

def updatePhase (original : Journal) (phase : JournalPhase) (commitOid : Option CommitOid) :
    Writer Unit :=
  update fun store => store.writeJournal { original with phase, commitOid }

/-- A batch whose event is in `HEAD` is finished once all its files are. -/
def finishCommitted (journal : Journal) (eventPath : RepositoryPath)
    (headMatches : Finset RepositoryPath) : Writer AppendOutcome := do
  if headMatches.card ≠ journal.files.length then
    refuse (invariantError s!"batch {journal.batchId} is only partially present in HEAD")
  else
    let commitOid ← inspect fun store => .ok store.headOid
    update fun store => .ok (store.cleanup journal)
    pure (outcome journal eventPath commitOid true)

/-- The journal with the `HEAD` its batch starts from, recorded once. -/
def recordBase (journal : Journal) : Writer Journal :=
  match journal.baseHeadOid with
  | some baseHeadOid => do
      let ancestor ← inspect fun store => store.isAncestor baseHeadOid
      if ancestor then pure journal
      else refuse (invariantError
        s!"batch {journal.batchId} base HEAD is not an ancestor of current HEAD")
  | none => do
      let headOid ← inspect fun store => .ok store.headOid
      let reconciled := { journal with baseHeadOid := some headOid }
      update fun store => store.writeJournal reconciled
      pure reconciled

/-- A file that already exists must be the declared one, left by an
interrupted run of the same batch. -/
def acceptExisting (file : PendingFile) (recovered : Bool) (bytes : Bytes) : Writer Unit :=
  if sha256 bytes ≠ file.sha256 then
    refuse (invariantError s!"working-tree path {file.targetPath} differs from pending journal")
  else if !recovered then
    if file.kind = .object then
      refuse (invariantError s!"OBJECT_PENDING: {file.targetPath}")
    else
      refuse (invariantError s!"create_new refused existing event path: {file.targetPath}")
  else pure ()

def writePayload (payloads : List (RepositoryPath × Bytes)) (path : RepositoryPath) :
    Writer Unit :=
  match payloads.lookup path with
  | some payload => update fun store => store.writeNew path payload
  | none => refuse (invariantError "validated pending payload disappeared")

def createFile (payloads : List (RepositoryPath × Bytes)) (headMatches : Finset RepositoryPath)
    (recovered : Bool) (file : PendingFile) : Writer Unit := do
  if file.targetPath ∈ headMatches then
    if file.kind ≠ .object then
      refuse (invariantError "only objects may be reused from HEAD")
    else pure ()
  else
    let existing ← inspect fun store => .ok (store.worktree.get? file.targetPath)
    match existing with
    | some bytes => acceptExisting sha256 file recovered bytes
    | none => do
        seam .beforeCreate
        writePayload payloads file.targetPath
        seam .afterCreate

def stageAndCommit (journal : Journal) (allowed : Finset RepositoryPath) : Writer Unit := do
  updatePhase journal .created none
  seam .beforeAdd
  update fun store => store.stagePaths allowed
  seam .afterAdd
  updatePhase journal .staged none
  inspect fun store => store.verifyExactStaged sha256 allowed journal
  seam .beforeCommit
  update fun store => store.commitPaths journal.batchId allowed
  seam .afterCommit

/-- Record the commit and drop the journal.  The default observer of the
commit does nothing. -/
def publish (journal : Journal) (eventPath : RepositoryPath) (recovered : Bool) :
    Writer AppendOutcome := do
  let commitOid ← inspect fun store => .ok store.headOid
  seam .beforeCommitOid
  updatePhase journal .committed (some commitOid)
  seam .afterCommitOid
  seam .beforeIndex
  seam .afterIndex
  updatePhase journal .indexed (some commitOid)
  seam .beforeCleanup
  update fun store => .ok (store.cleanup journal)
  seam .afterCleanup
  pure (outcome journal eventPath commitOid recovered)

/-- The files still to be added once the batch is known not to be committed. -/
def appendFiles (journal : Journal) (eventPath : RepositoryPath)
    (headMatches : Finset RepositoryPath) (recovered : Bool) : Writer AppendOutcome := do
  let journal ← recordBase journal
  inspect fun store =>
    store.checkBaseline sha256 journal headMatches (journal.baseHeadOid.getD store.headOid)
  let payloads ← inspect fun store => store.readPayloads sha256 journal
  let allowed := journal.targetPaths.toFinset \ headMatches
  inspect fun store => store.rejectForeignStaged sha256 allowed journal
  forEach journal.files (createFile sha256 payloads headMatches recovered)
  stageAndCommit sha256 journal allowed
  publish journal eventPath recovered

def commitJournalLocked (journal : Journal) (recovered : Bool) : Writer AppendOutcome := do
  inspect fun _ => validateJournal journal
  inspect fun store => store.rejectManagedChanges journal
  inspect fun store => store.checkHead sha256 journal
  let headMatches ← inspect fun store => .ok (store.headMatches journal)
  let eventPath ← inspect fun _ => eventPath journal
  if eventPath ∈ headMatches then
    finishCommitted journal eventPath headMatches
  else
    appendFiles sha256 journal eventPath headMatches recovered

/-! ### Recovery -/

/-- Exchange the first journal that covers a property with the first one. -/
def swapToFront (covers : Journal → Bool) (journals : List Journal) : List Journal :=
  match journals.span fun journal => !covers journal with
  | (first :: before, found :: after) => found :: before ++ first :: after
  | _ => journals

/-- Journals are replayed by batch ID, after the one that owns what is staged. -/
def recoveryOrder (staged : Finset RepositoryPath) (journals : List Journal) : List Journal :=
  if staged = ∅ then journals
  else swapToFront (fun journal => decide (staged ⊆ journal.targetPaths.toFinset)) journals

def recoverAllLocked (exclude : Option BatchId) : Writer (List AppendOutcome) := do
  let order ← inspect fun store => .ok (recoveryOrder store.stagedFromHead.keys
    (store.readJournals.filter fun journal => exclude ≠ some journal.batchId))
  gather order fun journal => commitJournalLocked sha256 journal true

def recoverPending : Writer (List AppendOutcome) :=
  recoverAllLocked sha256 none

end Commit

end SharedContext
