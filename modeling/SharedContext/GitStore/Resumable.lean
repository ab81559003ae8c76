import SharedContext.GitStore.AppendOnly

/-!
# Resumable stores

What every crash leaves behind: the pending batches with all their payloads,
and a working tree and an index that differ from `HEAD` only by files some
pending batch has already created or staged.  Each operation of the writer
keeps this, so that recovery can go on from any point.
-/

namespace SharedContext

/-- Files with the same destination are declared with the same digest. -/
def Journal.Agrees (journal other : Journal) : Prop :=
  ∀ file ∈ journal.files, ∀ otherFile ∈ other.files, file.targetPath = otherFile.targetPath →
    file.sha256 = otherFile.sha256

theorem Journal.Valid.isManaged {journal : Journal} (valid : journal.Valid)
    {path : RepositoryPath} (isTarget : path ∈ journal.targetPaths) : path.isManaged = true := by
  obtain ⟨file, member, rfl⟩ := List.mem_map.mp isTarget
  cases kind : file.kind with
  | event =>
      obtain ⟨eventId, target⟩ := targetPath_of_event (valid.kinds file member) kind
      rw [target]
      rfl
  | object =>
      rw [targetPath_of_object (valid.kinds file member) kind]
      rfl

theorem Journal.Valid.digest_of_object {journal : Journal} (valid : journal.Valid)
    {file : PendingFile} (member : file ∈ journal.files) {digest : Digest}
    (target : file.targetPath = .object digest) : file.sha256 = digest := by
  cases kind : file.kind with
  | event =>
      obtain ⟨eventId, isEvent⟩ := targetPath_of_event (valid.kinds file member) kind
      rw [target] at isEvent
      cases isEvent
  | object =>
      rw [targetPath_of_object (valid.kinds file member) kind] at target
      exact RepositoryPath.object.inj target

variable (sha256 : Bytes → Digest)

namespace Store

/-- The paths staged for the next commit when `HEAD` is part of the index. -/
def additions (store : Store) : Finset RepositoryPath :=
  store.index.keys \ store.head.tree.keys

/-- `HEAD` has every file of the journal with its digest. -/
def Complete (store : Store) (journal : Journal) : Prop :=
  ∀ file ∈ journal.files, ∃ bytes, store.headFile file.targetPath = some bytes ∧
    sha256 bytes = file.sha256

/-- What is durable of a batch suffices to commit it. -/
structure Holds (store : Store) (id : BatchId) (dir : PendingDir) : Prop where
  named : dir.journal.batchId = id
  valid : dir.journal.Valid
  base : ∀ base, dir.journal.baseHeadOid = some base → base < store.commits.length
  payloads : ∀ file ∈ dir.journal.files, ∃ bytes,
    dir.payloads.get? file.payloadFile = some bytes ∧ bytes.length = file.size ∧
      sha256 bytes = file.sha256
  agrees : ∀ file ∈ dir.journal.files, ∀ bytes, store.headFile file.targetPath = some bytes →
    sha256 bytes = file.sha256

/-- A file that a batch with a recorded base has created. -/
def CreatedBy (store : Store) (path : RepositoryPath) (bytes : Bytes) : Prop :=
  ∃ id dir, store.pending.get? id = some dir ∧ dir.journal.baseHeadOid ≠ none ∧
    ∃ file ∈ dir.journal.files, file.targetPath = path ∧ sha256 bytes = file.sha256

/-- Recovery can continue from here, and every batch is committed or pending. -/
structure Resumable (batches : List Journal) (store : Store) : Prop where
  addressed : ∀ digest bytes, store.headFile (.object digest) = some bytes →
    sha256 bytes = digest
  pending : ∀ id dir, store.pending.get? id = some dir → store.Holds sha256 id dir
  consistent : ∀ id dir other otherDir, store.pending.get? id = some dir →
    store.pending.get? other = some otherDir → dir.journal.Agrees otherDir.journal
  kept : ∀ path bytes, path.isManaged = true → store.headFile path = some bytes →
    store.worktree.get? path = some bytes
  created : ∀ path bytes, path.isManaged = true → store.headFile path = none →
    store.worktree.get? path = some bytes → store.CreatedBy sha256 path bytes
  indexed : ∀ path bytes, store.headFile path = some bytes → store.indexFile path = some bytes
  staged : store.additions = ∅ ∨ ∃ id dir, store.pending.get? id = some dir ∧
    dir.journal.baseHeadOid ≠ none ∧ ∀ path ∈ store.additions,
      path ∈ dir.journal.targetPaths ∧ store.indexFile path = store.worktree.get? path
  accounted : ∀ journal ∈ batches, store.Complete sha256 journal ∨
    ∃ dir, store.pending.get? journal.batchId = some dir ∧ dir.journal.IsCopyOf journal

end Store

variable {sha256} {batches : List Journal} {store : Store}

theorem Store.Resumable.digest_of_worktree (resumable : store.Resumable sha256 batches)
    {id : BatchId} {dir : PendingDir} (isPending : store.pending.get? id = some dir)
    {file : PendingFile} (member : file ∈ dir.journal.files) {bytes : Bytes}
    (isThere : store.worktree.get? file.targetPath = some bytes) : sha256 bytes = file.sha256 := by
  have holds := resumable.pending id dir isPending
  have managed := holds.valid.isManaged (List.mem_map_of_mem member)
  cases inHead : store.headFile file.targetPath with
  | some committed =>
      have same := resumable.kept _ _ managed inHead
      rw [isThere] at same
      cases same
      exact holds.agrees file member bytes inHead
  | none =>
      obtain ⟨other, otherDir, isOther, -, otherFile, isFile, sameTarget, digest⟩ :=
        resumable.created _ _ managed inHead isThere
      rw [digest]
      exact resumable.consistent _ _ _ _ isOther isPending _ isFile _ member sameTarget

/-! ### Rewriting a journal -/

/-- The same batch at a later point of its processing. -/
structure PendingDir.Continues (next dir : PendingDir) : Prop where
  isCopy : next.journal.IsCopyOf dir.journal
  payloads : next.payloads = dir.payloads
  base : dir.journal.baseHeadOid ≠ none → next.journal.baseHeadOid ≠ none

theorem PendingDir.Continues.refl (dir : PendingDir) : dir.Continues dir :=
  ⟨.refl _, rfl, id⟩

theorem Journal.IsCopyOf.trans {first second third : Journal} (isCopy : first.IsCopyOf second)
    (isCopyToo : second.IsCopyOf third) : first.IsCopyOf third := by
  obtain ⟨_, _, _, rfl⟩ := isCopyToo
  obtain ⟨baseHeadOid, phase, commitOid, rfl⟩ := isCopy
  exact ⟨baseHeadOid, phase, commitOid, rfl⟩

theorem Journal.IsCopyOf.targetPaths {copy original : Journal} (isCopy : copy.IsCopyOf original) :
    copy.targetPaths = original.targetPaths := by
  rw [Journal.targetPaths, Journal.targetPaths, isCopy.files]

theorem Store.Holds.continues {id : BatchId} {dir next : PendingDir}
    (holds : store.Holds sha256 id dir) (continues : next.Continues dir)
    (base : ∀ base, next.journal.baseHeadOid = some base → base < store.commits.length) :
    store.Holds sha256 id next := by
  have files := continues.isCopy.files
  refine ⟨?_, ?_, base, ?_, ?_⟩
  · rw [continues.isCopy.batchId, holds.named]
  · rw [← validateJournal_eq_ok, continues.isCopy.validateJournal, validateJournal_eq_ok]
    exact holds.valid
  · rw [files, continues.payloads]
    exact holds.payloads
  · rw [files]
    exact holds.agrees

theorem Store.Resumable.rewrite (resumable : store.Resumable sha256 batches) {id : BatchId}
    {dir next : PendingDir} (isPending : store.pending.get? id = some dir)
    (continues : next.Continues dir)
    (base : ∀ base, next.journal.baseHeadOid = some base → base < store.commits.length) :
    Store.Resumable sha256 batches { store with pending := store.pending.insert id next } := by
  -- Every pending batch continues the one it replaces, and the other way round.
  have replaces : ∀ other found, (store.pending.insert id next).get? other = some found →
      ∃ old, store.pending.get? other = some old ∧ found.Continues old ∧
        ∀ base, found.journal.baseHeadOid = some base → base < store.commits.length := by
    intro other found isFound
    rw [BTreeMap.get?_insert] at isFound
    split at isFound
    · rename_i same
      rw [← Option.some.inj isFound, same]
      exact ⟨dir, isPending, continues, base⟩
    · exact ⟨found, isFound, .refl _, (resumable.pending other found isFound).base⟩
  have replaced : ∀ other old, store.pending.get? other = some old →
      ∃ found, (store.pending.insert id next).get? other = some found ∧ found.Continues old := by
    intro other old isOld
    rw [BTreeMap.get?_insert]
    split
    · rename_i same
      rw [same, isPending] at isOld
      rw [← Option.some.inj isOld]
      exact ⟨next, rfl, continues⟩
    · exact ⟨old, isOld, .refl _⟩
  refine ⟨resumable.addressed, ?_, ?_, resumable.kept, ?_, resumable.indexed, ?_, ?_⟩
  · intro other found isFound
    obtain ⟨old, isOld, continuesOld, baseOk⟩ := replaces other found isFound
    obtain ⟨named, valid, base, payloads, agrees⟩ :=
      (resumable.pending other old isOld).continues continuesOld baseOk
    exact ⟨named, valid, base, payloads, agrees⟩
  · intro other found another foundToo isFound isFoundToo
    obtain ⟨old, isOld, continuesOld, -⟩ := replaces other found isFound
    obtain ⟨oldToo, isOldToo, continuesToo, -⟩ := replaces another foundToo isFoundToo
    rw [Journal.Agrees, continuesOld.isCopy.files, continuesToo.isCopy.files]
    exact resumable.consistent other old another oldToo isOld isOldToo
  · intro path bytes managed absent isCreated
    obtain ⟨other, old, isOld, hasBase, file, member, target, digest⟩ :=
      resumable.created path bytes managed absent isCreated
    obtain ⟨found, isFound, continuesOld⟩ := replaced other old isOld
    exact ⟨other, found, isFound, continuesOld.base hasBase, file,
      continuesOld.isCopy.files ▸ member, target, digest⟩
  · refine resumable.staged.imp_right ?_
    rintro ⟨other, old, isOld, hasBase, owned⟩
    obtain ⟨found, isFound, continuesOld⟩ := replaced other old isOld
    exact ⟨other, found, isFound, continuesOld.base hasBase,
      continuesOld.isCopy.targetPaths ▸ owned⟩
  · intro journal isBatch
    refine (resumable.accounted journal isBatch).imp_right ?_
    rintro ⟨old, isOld, isCopy⟩
    obtain ⟨found, isFound, continuesOld⟩ := replaced _ old isOld
    exact ⟨found, isFound, continuesOld.isCopy.trans isCopy⟩

/-! ### Creating, staging and committing files -/

/-- A batch with a recorded base that is being committed. -/
structure Store.Owns (store : Store) (journal : Journal) (dir : PendingDir) : Prop where
  isPending : store.pending.get? journal.batchId = some dir
  isCopy : dir.journal.IsCopyOf journal
  sameBase : dir.journal.baseHeadOid = journal.baseHeadOid
  hasBase : dir.journal.baseHeadOid ≠ none

theorem Store.additions_commit {paths : Finset RepositoryPath}
    (areStaged : store.additions ⊆ paths) (batchId : BatchId) :
    Store.additions
      { store with
        history := store.commits
        head := ⟨Tree.overlay store.head.tree store.worktree paths, some batchId⟩
        index := Tree.overlay store.index store.worktree paths } = ∅ := by
  refine Finset.sdiff_eq_empty_iff_subset.mpr fun path inIndex => ?_
  rw [BTreeMap.mem_keys, Tree.get?_overlay] at inIndex ⊢
  split at inIndex
  · rename_i isNew
    rw [if_pos isNew]
    exact inIndex
  · rename_i notNew
    rw [if_neg notNew]
    by_contra absent
    have isStaged : path ∈ store.additions :=
      Finset.mem_sdiff.mpr ⟨(BTreeMap.mem_keys _ _).mpr inIndex, fun inHead =>
        absent ((BTreeMap.mem_keys _ _).mp inHead)⟩
    exact notNew (areStaged isStaged)

section Owned

variable {journal : Journal} {dir : PendingDir} (owns : store.Owns journal dir)
include owns

theorem Store.Resumable.writeNew (resumable : store.Resumable sha256 batches)
    {file : PendingFile} (member : file ∈ journal.files) {payload : Bytes}
    (digest : sha256 payload = file.sha256) (isNew : file.targetPath ∉ store.worktree.keys) :
    Store.Resumable sha256 batches
      { store with worktree := store.worktree.insert file.targetPath payload } := by
  have different : ∀ {path bytes}, store.worktree.get? path = some bytes →
      path ≠ file.targetPath := by
    rintro path bytes found rfl
    exact isNew (BTreeMap.mem_keys_of_get? found)
  refine ⟨resumable.addressed, ?_, resumable.consistent, ?_, ?_, resumable.indexed, ?_,
    resumable.accounted⟩
  · intro id found isFound
    obtain ⟨named, valid, base, payloads, agrees⟩ := resumable.pending id found isFound
    exact ⟨named, valid, base, payloads, agrees⟩
  · intro path bytes managed inHead
    have found := resumable.kept path bytes managed inHead
    rw [BTreeMap.get?_insert, if_neg (different found)]
    exact found
  · intro path bytes managed absent isCreated
    rw [BTreeMap.get?_insert] at isCreated
    split at isCreated
    · rename_i same
      rw [← Option.some.inj isCreated]
      exact ⟨journal.batchId, dir, owns.isPending, owns.hasBase, file,
        owns.isCopy.files ▸ member, same.symm, digest⟩
    · exact resumable.created path bytes managed absent isCreated
  · refine resumable.staged.imp_right ?_
    rintro ⟨id, found, isFound, hasBase, owned⟩
    refine ⟨id, found, isFound, hasBase, fun path isStaged => ⟨(owned path isStaged).1, ?_⟩⟩
    have inIndex : path ∈ store.index.keys := (Finset.mem_sdiff.mp isStaged).1
    obtain ⟨bytes, indexed⟩ := BTreeMap.mem_keys_iff.mp inIndex
    have sameBytes := (owned path isStaged).2
    have inWorktree : store.worktree.get? path = some bytes := sameBytes ▸ indexed
    change store.indexFile path = (store.worktree.insert file.targetPath payload).get? path
    rw [BTreeMap.get?_insert, if_neg (different inWorktree)]
    exact sameBytes

theorem Store.Resumable.stage (resumable : store.Resumable sha256 batches)
    (owned : ∀ path ∈ store.additions, path ∈ journal.targetPaths)
    {paths : Finset RepositoryPath}
    (areNew : ∀ path ∈ paths, path ∈ journal.targetPaths ∧ path ∉ store.head.tree.keys) :
    Store.Resumable sha256 batches
      { store with index := Tree.overlay store.index store.worktree paths } := by
  refine ⟨resumable.addressed, ?_, resumable.consistent, resumable.kept, resumable.created, ?_, ?_,
    resumable.accounted⟩
  · intro id found isFound
    obtain ⟨named, valid, base, payloads, agrees⟩ := resumable.pending id found isFound
    exact ⟨named, valid, base, payloads, agrees⟩
  · intro path bytes inHead
    have notNew : path ∉ paths := fun isNew =>
      (areNew path isNew).2 (BTreeMap.mem_keys_of_get? inHead)
    change (Tree.overlay store.index store.worktree paths).get? path = some bytes
    rw [Tree.get?_overlay, if_neg notNew]
    exact resumable.indexed path bytes inHead
  · refine .inr ⟨journal.batchId, dir, owns.isPending, owns.hasBase, fun path isStaged => ?_⟩
    obtain ⟨inIndex, absent⟩ := Finset.mem_sdiff.mp isStaged
    change path ∈ dir.journal.targetPaths ∧
      (Tree.overlay store.index store.worktree paths).get? path = store.worktree.get? path
    rw [owns.isCopy.targetPaths, Tree.get?_overlay]
    split
    · rename_i isNew
      exact ⟨(areNew path isNew).1, rfl⟩
    · rename_i notNew
      rw [BTreeMap.mem_keys, Tree.get?_overlay, if_neg notNew, ← BTreeMap.mem_keys] at inIndex
      have wasStaged : path ∈ store.additions := Finset.mem_sdiff.mpr ⟨inIndex, absent⟩
      refine ⟨owned path wasStaged, ?_⟩
      rcases resumable.staged with none | ⟨id, found, isFound, -, stagedBy⟩
      · rw [none] at wasStaged
        cases wasStaged
      · exact (stagedBy path wasStaged).2

theorem Store.Resumable.headFile_commit (resumable : store.Resumable sha256 batches)
    {paths : Finset RepositoryPath} (areNew : ∀ path ∈ paths, path ∈ journal.targetPaths)
    {path : RepositoryPath} {bytes : Bytes}
    (found : (Tree.overlay store.head.tree store.worktree paths).get? path = some bytes) :
    store.headFile path = some bytes ∨
      ∃ file ∈ dir.journal.files, file.targetPath = path ∧ sha256 bytes = file.sha256 := by
  rw [Tree.get?_overlay] at found
  split at found
  · rename_i isNew
    have isTarget := areNew path isNew
    rw [← owns.isCopy.targetPaths] at isTarget
    obtain ⟨file, member, rfl⟩ := List.mem_map.mp isTarget
    exact .inr ⟨file, member, rfl, resumable.digest_of_worktree owns.isPending member found⟩
  · exact .inl found

theorem Store.Resumable.commit (resumable : store.Resumable sha256 batches)
    {paths : Finset RepositoryPath}
    (areNew : ∀ path ∈ paths, path ∈ journal.targetPaths ∧ path ∉ store.head.tree.keys)
    (areStaged : store.additions ⊆ paths) (batchId : BatchId) :
    Store.Resumable sha256 batches
      { store with
        history := store.commits
        head := ⟨Tree.overlay store.head.tree store.worktree paths, some batchId⟩
        index := Tree.overlay store.index store.worktree paths } := by
  have committed : ∀ path bytes,
      (Tree.overlay store.head.tree store.worktree paths).get? path = some bytes →
        store.headFile path = some bytes ∨
          ∃ file ∈ dir.journal.files, file.targetPath = path ∧ sha256 bytes = file.sha256 :=
    fun _ _ => resumable.headFile_commit owns fun path isNew => (areNew path isNew).1
  have stays : ∀ path bytes, store.headFile path = some bytes →
      (Tree.overlay store.head.tree store.worktree paths).get? path = some bytes := by
    intro path bytes found
    rw [Tree.get?_overlay, if_neg fun isNew =>
      (areNew path isNew).2 (BTreeMap.mem_keys_of_get? found)]
    exact found
  have holds := resumable.pending _ _ owns.isPending
  refine ⟨?_, ?_, resumable.consistent, ?_, ?_, ?_, ?_, ?_⟩
  · intro digest bytes found
    rcases committed _ _ found with before | ⟨file, member, target, isDeclared⟩
    · exact resumable.addressed digest bytes before
    · rw [isDeclared]
      exact holds.valid.digest_of_object member target
  · intro id found isFound
    obtain ⟨named, valid, base, payloads, agrees⟩ := resumable.pending id found isFound
    refine ⟨named, valid, ?_, payloads, ?_⟩
    · intro base isBase
      have inRange := (resumable.pending id found isFound).base base isBase
      change base < (store.commits ++ [_]).length
      rw [List.length_append]
      exact Nat.lt_add_right _ inRange
    · intro file member bytes inHead
      rcases committed _ _ inHead with before | ⟨other, otherMember, sameTarget, isDeclared⟩
      · exact agrees file member bytes before
      · rw [isDeclared]
        exact resumable.consistent _ _ _ _ owns.isPending isFound _ otherMember _ member sameTarget
  · intro path bytes managed inHead
    change (Tree.overlay store.head.tree store.worktree paths).get? path = some bytes at inHead
    rw [Tree.get?_overlay] at inHead
    split at inHead
    · exact inHead
    · exact resumable.kept path bytes managed inHead
  · intro path bytes managed absent isCreated
    cases inHead : store.headFile path with
    | none => exact resumable.created path bytes managed inHead isCreated
    | some old =>
        rw [Store.headFile, stays path old inHead] at absent
        cases absent
  · intro path bytes inHead
    change (Tree.overlay store.index store.worktree paths).get? path = some bytes
    change (Tree.overlay store.head.tree store.worktree paths).get? path = some bytes at inHead
    rw [Tree.get?_overlay] at inHead ⊢
    split at inHead
    · rename_i isNew
      rw [if_pos isNew]
      exact inHead
    · rename_i notNew
      rw [if_neg notNew]
      exact resumable.indexed path bytes inHead
  · exact .inl (Store.additions_commit areStaged batchId)
  · intro journal isBatch
    refine (resumable.accounted journal isBatch).imp_left fun complete file member => ?_
    obtain ⟨bytes, found, digest⟩ := complete file member
    exact ⟨bytes, stays _ _ found, digest⟩

end Owned

/-! ### Finishing and starting a batch -/

theorem Store.Resumable.cleanup (resumable : store.Resumable sha256 batches) {journal : Journal}
    (complete : store.Complete sha256 journal)
    (isCopy : ∀ dir, store.pending.get? journal.batchId = some dir →
      dir.journal.IsCopyOf journal) :
    (store.cleanup journal).Resumable sha256 batches := by
  have remains : ∀ id dir, (store.cleanup journal).pending.get? id = some dir ↔
      store.pending.get? id = some dir ∧ id ≠ journal.batchId :=
    fun id dir => BTreeMap.get?_filter_eq_some
  have inHead : ∀ dir, store.pending.get? journal.batchId = some dir →
      ∀ path ∈ dir.journal.targetPaths, path ∈ store.head.tree.keys := by
    intro dir isPending path isTarget
    rw [(isCopy dir isPending).targetPaths] at isTarget
    obtain ⟨file, member, rfl⟩ := List.mem_map.mp isTarget
    obtain ⟨bytes, found, -⟩ := complete file member
    exact BTreeMap.mem_keys_of_get? found
  refine ⟨resumable.addressed, ?_, ?_, resumable.kept, ?_, resumable.indexed, ?_, ?_⟩
  · intro id dir isPending
    obtain ⟨named, valid, base, payloads, agrees⟩ :=
      resumable.pending id dir ((remains id dir).mp isPending).1
    exact ⟨named, valid, base, payloads, agrees⟩
  · intro id dir other otherDir isPending isOther
    exact resumable.consistent id dir other otherDir ((remains _ _).mp isPending).1
      ((remains _ _).mp isOther).1
  · intro path bytes managed absent isCreated
    obtain ⟨id, dir, isPending, hasBase, file, member, rfl, digest⟩ :=
      resumable.created path bytes managed absent isCreated
    refine ⟨id, dir, (remains id dir).mpr ⟨isPending, ?_⟩, hasBase, file, member, rfl, digest⟩
    rintro rfl
    have isTarget := inHead dir isPending _ (List.mem_map_of_mem member)
    exact BTreeMap.not_mem_keys_iff.mpr absent isTarget
  · rcases resumable.staged with none | ⟨id, dir, isPending, hasBase, owned⟩
    · exact .inl none
    · by_cases isOther : id = journal.batchId
      · refine .inl (Finset.eq_empty_of_forall_notMem fun path isStaged => ?_)
        subst isOther
        exact (Finset.mem_sdiff.mp isStaged).2 (inHead dir isPending path (owned path isStaged).1)
      · exact .inr ⟨id, dir, (remains id dir).mpr ⟨isPending, isOther⟩, hasBase, owned⟩
  · intro batch isBatch
    rcases resumable.accounted batch isBatch with isComplete | ⟨dir, isPending, isCopyOf⟩
    · exact .inl isComplete
    · by_cases same : batch.batchId = journal.batchId
      · rw [same] at isPending
        have files : batch.files = journal.files :=
          isCopyOf.files.symm.trans (isCopy dir isPending).files
        refine .inl fun file member => complete file (files ▸ member)
      · exact .inr ⟨dir, (remains _ _).mpr ⟨isPending, same⟩, isCopyOf⟩

/-- An event that is committed or pending is only journaled with the same digest. -/
def Store.Admits (sha256 : Bytes → Digest) (store : Store) (journal : Journal) : Prop :=
  ∀ file ∈ journal.files, file.kind = .event →
    (∀ bytes, store.headFile file.targetPath = some bytes → sha256 bytes = file.sha256) ∧
      ∀ id dir, store.pending.get? id = some dir → ∀ other ∈ dir.journal.files,
        other.targetPath = file.targetPath → other.sha256 = file.sha256

theorem Store.Resumable.createPending (resumable : store.Resumable sha256 batches)
    {batch : PreparedBatch sha256} (isNew : batch.journal.batchId ∉ store.pending.keys)
    (admits : store.Admits sha256 batch.journal) :
    Store.Resumable sha256 (batch.journal :: batches)
      { store with
        pending := store.pending.insert batch.journal.batchId
          ⟨batch.journal, batch.payloads⟩ } := by
  have isOld : ∀ {id dir}, store.pending.get? id = some dir → id ≠ batch.journal.batchId := by
    rintro id dir isPending rfl
    exact isNew (BTreeMap.mem_keys_of_get? isPending)
  have stays : ∀ {id dir}, store.pending.get? id = some dir →
      (store.pending.insert batch.journal.batchId ⟨batch.journal, batch.payloads⟩).get? id =
        some dir := by
    intro id dir isPending
    rw [BTreeMap.get?_insert, if_neg (isOld isPending), isPending]
  have agreesWith : ∀ id dir, store.pending.get? id = some dir →
      dir.journal.Agrees batch.journal := by
    intro id dir isPending other isOther file member sameTarget
    cases kind : file.kind with
    | event => exact (admits file member kind).2 id dir isPending other isOther sameTarget
    | object =>
        have target := targetPath_of_object (batch.valid.kinds file member) kind
        exact (resumable.pending id dir isPending).valid.digest_of_object isOther
          (sameTarget.trans target)
  refine ⟨resumable.addressed, ?_, ?_, resumable.kept, ?_, resumable.indexed, ?_, ?_⟩
  · intro id dir isPending
    rw [BTreeMap.get?_insert] at isPending
    split at isPending
    · rename_i same
      cases isPending
      refine ⟨same.symm, batch.valid, ?_, batch.declared, ?_⟩
      · intro base isBase
        rw [batch.noBase] at isBase
        cases isBase
      · intro file member bytes inHead
        cases kind : file.kind with
        | event => exact (admits file member kind).1 bytes inHead
        | object =>
            rw [targetPath_of_object (batch.valid.kinds file member) kind] at inHead
            exact resumable.addressed _ bytes inHead
    · obtain ⟨named, valid, base, payloads, agrees⟩ := resumable.pending id dir isPending
      exact ⟨named, valid, base, payloads, agrees⟩
  · intro id dir other otherDir isPending isOther
    rw [BTreeMap.get?_insert] at isPending isOther
    split at isPending <;> split at isOther
    · cases isPending
      cases isOther
      intro file member otherFile otherMember sameTarget
      have sameFile := List.inj_on_of_nodup_map batch.valid.targets member otherMember sameTarget
      rw [sameFile]
    · cases isPending
      intro file member otherFile otherMember sameTarget
      exact (agreesWith _ _ isOther _ otherMember _ member sameTarget.symm).symm
    · cases isOther
      exact agreesWith id dir isPending
    · exact resumable.consistent id dir other otherDir isPending isOther
  · intro path bytes managed absent isCreated
    obtain ⟨id, dir, isPending, created⟩ := resumable.created path bytes managed absent isCreated
    exact ⟨id, dir, stays isPending, created⟩
  · refine resumable.staged.imp_right ?_
    rintro ⟨id, dir, isPending, owned⟩
    exact ⟨id, dir, stays isPending, owned⟩
  · intro journal isBatch
    rcases List.mem_cons.mp isBatch with rfl | isBefore
    · refine .inr ⟨⟨batch.journal, batch.payloads⟩, ?_, .refl _⟩
      rw [BTreeMap.get?_insert, if_pos rfl]
    · refine (resumable.accounted journal isBefore).imp_right ?_
      rintro ⟨dir, isPending, isCopy⟩
      exact ⟨dir, stays isPending, isCopy⟩

end SharedContext
