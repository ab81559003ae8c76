import SharedContext.GitStore.Writer

/-!
# Prepared batches

How a batch becomes a durable journal.  A prepared batch carries the facts
its construction establishes: its journal is valid, has no base yet, and every
payload is the declared one.
-/

namespace SharedContext

/-! ### What validation establishes -/

structure Journal.Valid (journal : Journal) : Prop where
  version : journal.version = journalVersion
  eventIds : journal.eventIds.Nodup
  nonempty : journal.files ≠ []
  targets : journal.targetPaths.Nodup
  payloads : (journal.files.map PendingFile.payloadFile).Nodup
  kinds : ∀ file ∈ journal.files, validateTarget file = .ok ()
  observed : journal.observedEventIds.toFinset = journal.eventIds.toFinset

theorem validateJournal_eq_ok {journal : Journal} :
    validateJournal journal = .ok () ↔ journal.Valid := by
  simp only [validateJournal, Result.seq_eq_ok, Result.require_eq_ok, Result.forM_eq_ok]
  constructor
  · rintro ⟨version, eventIds, nonempty, ⟨targets, payloads⟩, kinds, observed⟩
    exact ⟨version, eventIds, nonempty, targets, payloads, kinds, observed⟩
  · intro valid
    exact ⟨valid.version, valid.eventIds, valid.nonempty, ⟨valid.targets, valid.payloads⟩,
      valid.kinds, valid.observed⟩

theorem targetPath_of_object {file : PendingFile} (valid : validateTarget file = .ok ())
    (isObject : file.kind = .object) : file.targetPath = .object file.sha256 := by
  rw [validateTarget, isObject] at valid
  exact Result.require_eq_ok.mp valid

theorem targetPath_of_event {file : PendingFile} (valid : validateTarget file = .ok ())
    (isEvent : file.kind = .event) : ∃ eventId, file.targetPath = .event eventId := by
  cases target : file.targetPath with
  | event eventId => exact ⟨eventId, rfl⟩
  | _ => simp [validateTarget, isEvent, target, throw, throwThe, MonadExceptOf.throw] at valid

/-! ### Copies of a journal -/

/-- The same batch at some point of its processing. -/
def Journal.IsCopyOf (copy original : Journal) : Prop :=
  ∃ baseHeadOid phase commitOid, copy = { original with baseHeadOid, phase, commitOid }

theorem Journal.IsCopyOf.refl (journal : Journal) : journal.IsCopyOf journal :=
  ⟨journal.baseHeadOid, journal.phase, journal.commitOid, rfl⟩

theorem Journal.IsCopyOf.update {copy original : Journal} (isCopy : copy.IsCopyOf original)
    (baseHeadOid : Option CommitOid) (phase : JournalPhase) (commitOid : Option CommitOid) :
    Journal.IsCopyOf { copy with baseHeadOid, phase, commitOid } original := by
  obtain ⟨_, _, _, rfl⟩ := isCopy
  exact ⟨baseHeadOid, phase, commitOid, rfl⟩

section Copies

variable {copy original : Journal} (isCopy : copy.IsCopyOf original)
include isCopy

theorem Journal.IsCopyOf.files : copy.files = original.files := by
  obtain ⟨_, _, _, rfl⟩ := isCopy
  rfl

theorem Journal.IsCopyOf.batchId : copy.batchId = original.batchId := by
  obtain ⟨_, _, _, rfl⟩ := isCopy
  rfl

theorem Journal.IsCopyOf.validateJournal :
    SharedContext.validateJournal copy = SharedContext.validateJournal original := by
  obtain ⟨_, _, _, rfl⟩ := isCopy
  rfl

end Copies

/-! ### Preparing a batch -/

variable (sha256 : Bytes → Digest)

/-- A durable pending batch before its first commit attempt. -/
structure PreparedBatch where
  journal : Journal
  payloads : BTreeMap Nat Bytes
  valid : journal.Valid
  noBase : journal.baseHeadOid = none
  declared : ∀ file ∈ journal.files, ∃ bytes, payloads.get? file.payloadFile = some bytes ∧
    bytes.length = file.size ∧ sha256 bytes = file.sha256

structure Payload where
  kind : PendingFileKind
  targetPath : RepositoryPath
  bytes : Bytes

variable {sha256} in
/-- The journaled description of the payload with a given number. -/
def Payload.pendingFile (sha256 : Bytes → Digest) (entry : Payload × Nat) : PendingFile where
  kind := entry.1.kind
  targetPath := entry.1.targetPath
  payloadFile := entry.2
  sha256 := sha256 entry.1.bytes
  size := entry.1.bytes.length

def pendingFiles (payloads : List Payload) : List PendingFile :=
  payloads.zipIdx.map (Payload.pendingFile sha256)

def payloadFiles (payloads : List Payload) : BTreeMap Nat Bytes :=
  .ofKeys (Finset.range payloads.length) fun index => payloads[index]?.map Payload.bytes

def preparedJournal (batchId : BatchId) (eventId : EventId) (additionalEventIds : List EventId)
    (payloads : List Payload) : Journal where
  version := journalVersion
  batchId := batchId
  eventId := eventId
  additionalEventIds := additionalEventIds
  baseHeadOid := none
  phase := .prepared
  commitOid := none
  files := pendingFiles sha256 payloads

theorem payloads_declared (payloads : List Payload) :
    ∀ file ∈ pendingFiles sha256 payloads, ∃ bytes,
      (payloadFiles payloads).get? file.payloadFile = some bytes ∧
        bytes.length = file.size ∧ sha256 bytes = file.sha256 := by
  intro file member
  obtain ⟨⟨payload, index⟩, isEntry, rfl⟩ := List.mem_map.mp member
  have found := List.mem_zipIdx_iff_getElem?.mp isEntry
  have inRange : index < payloads.length := (List.getElem?_eq_some_iff.mp found).1
  refine ⟨payload.bytes, ?_, rfl, rfl⟩
  rw [payloadFiles, BTreeMap.get?_ofKeys_eq_some]
  exact ⟨Finset.mem_range.mpr inRange, by rw [Payload.pendingFile, found]; rfl⟩

/-- The journal as it is written: only a valid one reaches the disk. -/
def prepareBatch (batchId : BatchId) (eventId : EventId) (additionalEventIds : List EventId)
    (payloads : List Payload) : Result (PreparedBatch sha256) :=
  let journal := preparedJournal sha256 batchId eventId additionalEventIds payloads
  match checked : validateJournal journal with
  | .ok () => pure
      { journal
        payloads := payloadFiles payloads
        valid := validateJournal_eq_ok.mp checked
        noBase := rfl
        declared := payloads_declared sha256 payloads }
  | .error error => throw error

/-- The objects of a batch by digest; equal contents are stored once. -/
def uniqueObjects (objects : List Bytes) : List Payload :=
  let byDigest : BTreeMap Digest Bytes := objects.foldl (fun table bytes =>
    if sha256 bytes ∈ table.keys then table else table.insert (sha256 bytes) bytes) .empty
  byDigest.values.map fun bytes => ⟨.object, objectPath (sha256 bytes), bytes⟩

def prepareSerializedWithBatch (eventId : EventId) (objects : List Bytes) (batchId : BatchId)
    (eventBytes : Bytes) : Result (PreparedBatch sha256) :=
  prepareBatch sha256 batchId eventId []
    (⟨.event, generatedEventPath eventId, eventBytes⟩ :: uniqueObjects sha256 objects)

structure BatchEvent where
  eventId : EventId
  isCandidateConfirmed : Bool
  bytes : Bytes

def maxInternalBatchEvents : Nat := 512

/-- Journals several events; the first confirmation is the primary one. -/
def prepareInternalEventBatch (events : List BatchEvent) (batchId : BatchId) :
    Result (PreparedBatch sha256) :=
  if events.length > maxInternalBatchEvents then
    throw (invariantError "internal Event batch requires between one and 512 Events")
  else
    let primaryIndex := (events.findIdx? BatchEvent.isCandidateConfirmed).getD 0
    match events[primaryIndex]? with
    | none =>
        throw (invariantError "internal Event batch requires between one and 512 Events")
    | some primary =>
        prepareBatch sha256 batchId primary.eventId
          ((events.eraseIdx primaryIndex).map BatchEvent.eventId)
          (events.map fun event => ⟨.event, generatedEventPath event.eventId, event.bytes⟩)

/-! ### What the steps on the store establish -/

namespace Store

/-- Create the pending directory of a batch that has none. -/
def createPending (store : Store) (batch : PreparedBatch sha256) : Result Store := do
  Result.require (batch.journal.batchId ∉ store.pending.keys)
    ⟨.io, "create pending batch: directory exists"⟩
  pure
    { store with
      pending := store.pending.insert batch.journal.batchId ⟨batch.journal, batch.payloads⟩ }

variable {sha256} {store next : Store}

theorem createPending_eq_ok {batch : PreparedBatch sha256} :
    store.createPending sha256 batch = .ok next ↔
      batch.journal.batchId ∉ store.pending.keys ∧
        { store with
          pending := store.pending.insert batch.journal.batchId
            ⟨batch.journal, batch.payloads⟩ } = next := by
  simp [createPending, pure, Except.pure]

theorem writeJournal_eq_ok {journal : Journal} :
    store.writeJournal journal = .ok next ↔
      journal.Valid ∧ ∃ dir, store.pending.get? journal.batchId = some dir ∧
        { store with pending := store.pending.insert journal.batchId { dir with journal } } =
          next := by
  simp only [writeJournal, Result.seq_eq_ok, validateJournal_eq_ok]
  refine and_congr_right fun _ => ?_
  cases store.pending.get? journal.batchId <;>
    simp [pure, Except.pure, throw, throwThe, MonadExceptOf.throw]

theorem checkHead_eq_ok {journal : Journal} :
    store.checkHead sha256 journal = .ok () ↔
      ∀ file ∈ journal.files, ∀ bytes, store.headFile file.targetPath = some bytes →
        sha256 bytes = file.sha256 := by
  rw [checkHead, Result.forM_eq_ok]
  refine forall₂_congr fun file _ => ?_
  cases store.headFile file.targetPath <;> simp [pure, Except.pure]

theorem mem_headMatches {journal : Journal} {path : RepositoryPath} :
    path ∈ store.headMatches journal ↔ path ∈ journal.targetPaths ∧ path ∈ store.head.tree.keys := by
  rw [headMatches, List.mem_toFinset, List.mem_filter, headFile, BTreeMap.mem_keys]

theorem checkBaseline_eq_ok {journal : Journal} {headMatches : Finset RepositoryPath}
    {baseHeadOid : CommitOid} :
    store.checkBaseline sha256 journal headMatches baseHeadOid = .ok () ↔
      ∀ file ∈ journal.files, file.targetPath ∈ headMatches →
        (store.fileAt baseHeadOid file.targetPath).map sha256 = some file.sha256 := by
  simp only [checkBaseline, Result.forM_eq_ok, Result.require_eq_ok]

theorem readPayload_eq_ok {journal : Journal} {file : PendingFile} {bytes : Bytes} :
    store.readPayload sha256 journal file = .ok bytes ↔
      ((store.pending.get? journal.batchId).bind fun dir =>
        dir.payloads.get? file.payloadFile) = some bytes ∧
      bytes.length = file.size ∧ sha256 bytes = file.sha256 := by
  rw [readPayload]
  split
  · rename_i found lookup
    rw [Result.seq_eq_ok, Result.require_eq_ok, lookup, Option.some.injEq]
    constructor
    · rintro ⟨declared, same⟩
      cases same
      exact ⟨rfl, declared⟩
    · rintro ⟨rfl, declared⟩
      exact ⟨declared, rfl⟩
  · simp [throw, throwThe, MonadExceptOf.throw, *]

end Store

theorem swapToFront_perm (covers : Journal → Bool) (journals : List Journal) :
    (swapToFront covers journals).Perm journals := by
  unfold swapToFront
  split
  · rename_i first before found after isSpan
    rw [List.span_eq_takeWhile_dropWhile, Prod.mk.injEq] at isSpan
    have whole := List.takeWhile_append_dropWhile (p := fun journal => !covers journal)
      (l := journals)
    rw [isSpan.1, isSpan.2] at whole
    rw [← whole]
    have atFront : (found :: (before ++ first :: after)).Perm
        (found :: first :: (before ++ after)) := .cons _ List.perm_middle
    have atBack : (first :: (before ++ found :: after)).Perm
        (first :: found :: (before ++ after)) := .cons _ List.perm_middle
    exact (atFront.trans (.swap ..)).trans atBack.symm
  · exact .refl _

theorem recoveryOrder_perm (staged : Finset RepositoryPath) (journals : List Journal) :
    (recoveryOrder staged journals).Perm journals := by
  unfold recoveryOrder
  split
  · exact .refl _
  · exact swapToFront_perm _ _

/-! ### The public operations -/

open Interruptible (seam update)

/-- What follows once the journal is durable, under the writer lock. -/
def appendLocked (journal : Journal) : Writer AppendOutcome := do
  let _ ← recoverAllLocked sha256 (some journal.batchId)
  commitJournalLocked sha256 journal false

/-- `append_event`, and the write of a submission or confirmation batch. -/
def appendBatch (batch : PreparedBatch sha256) : Writer AppendOutcome := do
  update fun store => store.createPending sha256 batch
  seam .afterJournal
  appendLocked sha256 batch.journal

/-! ### Samples -/

/-- SHA-256 on the contents of the samples: two events and one object. -/
def sampleSha256 (bytes : Bytes) : Digest :=
  if bytes = "{}".toUTF8.toList then
    ⟨0x44136fa355b3678a1146ad16f7e8649e94fb4fc21fe77e8310c060f61caaff8a⟩
  else if bytes = "[]".toUTF8.toList then
    ⟨0x4f53cda18c2baa0c0354bb5f9a3ecbe5ed12ab4d8e11ba873c2f11161202b945⟩
  else ⟨0x5feceb66ffc86f38d952786c6d696c79c2dbc239dd4e91b46729d73a27fb57e9⟩

/-- A batch of one event that cites the object with contents `0`. -/
def sampleBatch (batchId : BatchId) (eventId : EventId) (event : Bytes) :
    PreparedBatch sampleSha256 :=
  let payloads : List Payload :=
    [⟨.event, generatedEventPath eventId, event⟩,
      ⟨.object, objectPath (sampleSha256 [48]), [48]⟩]
  { journal := preparedJournal sampleSha256 batchId eventId [] payloads
    payloads := payloadFiles payloads
    valid :=
      { version := rfl
        eventIds := List.nodup_singleton eventId
        nonempty := List.cons_ne_nil _ _
        targets := by simp [payloads, Journal.targetPaths, preparedJournal, pendingFiles,
          Payload.pendingFile, generatedEventPath, objectPath]
        payloads := by simp [payloads, preparedJournal, pendingFiles, Payload.pendingFile]
        kinds := by simp [payloads, preparedJournal, pendingFiles, Payload.pendingFile,
          generatedEventPath, objectPath, validateTarget, pure, Except.pure]
        observed := rfl }
    noBase := rfl
    declared := payloads_declared sampleSha256 payloads }

def sampleStore : Store where
  history := []
  head := ⟨.empty, none⟩
  index := .empty
  worktree := .empty
  pending := .empty

end SharedContext
