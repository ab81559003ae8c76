import SharedContext.GitStore.Resumable
import SharedContext.GitStore.Interleaving

/-!
# Replaying a journal

On a resumable store no guard of the writer refuses a journal that is either
finished or not begun: the replay ends with the journal in `HEAD` and its
pending directory gone, and wherever it dies the store is resumable again.
-/

namespace SharedContext

open Interruptible

variable {sha256 : Bytes → Digest} {batches : List Journal}

/-! ### The guards pass on a resumable store -/

section Guards

variable {store : Store} (resumable : store.Resumable sha256 batches)
include resumable

theorem Store.Resumable.get?_stagedFromHead (path : RepositoryPath) :
    store.stagedFromHead.get? path = if path ∈ store.additions then some .added else none := by
  rw [stagedFromHead, Tree.get?_diff, Tree.status, additions]
  cases inHead : store.head.tree.get? path with
  | some bytes =>
      have inIndex : store.index.get? path = some bytes := resumable.indexed path bytes inHead
      have present := BTreeMap.mem_keys_of_get? inHead
      simp [inIndex, present]
  | none =>
      have absent := BTreeMap.not_mem_keys_iff.mpr inHead
      cases inIndex : store.index.get? path with
      | some bytes =>
          have present := BTreeMap.mem_keys_of_get? inIndex
          simp [present, absent]
      | none =>
          have absentToo := BTreeMap.not_mem_keys_iff.mpr inIndex
          simp [absentToo]

theorem Store.Resumable.keys_stagedFromHead : store.stagedFromHead.keys = store.additions := by
  ext path
  rw [BTreeMap.mem_keys, resumable.get?_stagedFromHead]
  split <;> simp [*]

theorem Store.Resumable.rejectManagedChanges {journal : Journal}
    (owned : ∀ path ∈ store.additions, path ∈ journal.targetPaths) :
    store.rejectManagedChanges journal = .ok () := by
  refine Result.require_eq_ok.mpr fun path isChanged => ?_
  obtain ⟨status, isStatus⟩ := BTreeMap.mem_keys_iff.mp isChanged
  obtain ⟨isStatus, managed⟩ := BTreeMap.get?_filter_eq_some.mp isStatus
  rw [Tree.get?_diff, Tree.status] at isStatus
  cases inHead : store.head.tree.get? path with
  | some bytes =>
      have inIndex := BTreeMap.mem_keys_of_get? (resumable.indexed path bytes inHead)
      have inTracked : store.tracked.get? path = some bytes :=
        BTreeMap.get?_filter_eq_some.mpr ⟨resumable.kept path bytes managed inHead, inIndex⟩
      simp [inHead, inTracked] at isStatus
  | none =>
      cases inTracked : store.tracked.get? path with
      | none => simp [inHead, inTracked] at isStatus
      | some bytes =>
          have inIndex := (BTreeMap.get?_filter_eq_some.mp inTracked).2
          have isStaged : path ∈ store.additions :=
            Finset.mem_sdiff.mpr ⟨inIndex, BTreeMap.not_mem_keys_iff.mpr inHead⟩
          refine ⟨?_, owned path isStaged⟩
          rw [Store.changedFromHead, BTreeMap.get?_filter_eq_some, Tree.get?_diff, Tree.status,
            inHead, inTracked]
          exact ⟨rfl, managed⟩

variable {journal : Journal} {dir : PendingDir}
  (isPending : store.pending.get? journal.batchId = some dir)
  (isCopy : dir.journal.IsCopyOf journal)
include isPending isCopy

theorem Store.Resumable.valid_journal : journal.Valid := by
  have valid := (resumable.pending _ _ isPending).valid
  rw [← validateJournal_eq_ok, isCopy.validateJournal] at valid
  exact validateJournal_eq_ok.mp valid

theorem Store.Resumable.checkHead : store.checkHead sha256 journal = .ok () := by
  have agrees := (resumable.pending _ _ isPending).agrees
  rw [isCopy.files] at agrees
  exact Store.checkHead_eq_ok.mpr agrees

theorem Store.Resumable.rejectForeignStaged {allowed : Finset RepositoryPath}
    (owned : ∀ path ∈ store.additions, path ∈ journal.targetPaths)
    (areAllowed : store.additions ⊆ allowed) :
    store.rejectForeignStaged sha256 allowed journal = .ok () := by
  refine Result.require_eq_ok.mpr fun path isStaged => ?_
  rw [resumable.keys_stagedFromHead] at isStaged
  rw [resumable.get?_stagedFromHead, if_pos isStaged]
  refine ⟨rfl, areAllowed isStaged, ?_⟩
  obtain ⟨bytes, inIndex⟩ := BTreeMap.mem_keys_iff.mp (Finset.mem_sdiff.mp isStaged).1
  have inIndex : store.indexFile path = some bytes := inIndex
  have inWorktree : store.worktree.get? path = some bytes := by
    rcases resumable.staged with none | ⟨_, _, _, -, stagedBy⟩
    · rw [none] at isStaged
      cases isStaged
    · rw [← (stagedBy path isStaged).2, inIndex]
  obtain ⟨target, isFile, rfl⟩ := List.mem_map.mp (owned path isStaged)
  cases found : journal.files.find? fun file => decide (file.targetPath = target.targetPath) with
  | none =>
      have isNone := List.find?_eq_none.mp found target isFile
      exact absurd rfl (of_decide_eq_false (Bool.eq_false_iff.mpr isNone))
  | some file =>
      have isFound := List.find?_some found
      have sameTarget : file.targetPath = target.targetPath := of_decide_eq_true isFound
      have member : file ∈ dir.journal.files := isCopy.files ▸ List.mem_of_find?_eq_some found
      have digest := resumable.digest_of_worktree isPending member (sameTarget ▸ inWorktree)
      simp [Store.stagedAsDeclared, found, inIndex, digest]

theorem Store.Resumable.readPayloads :
    ∃ payloads, store.readPayloads sha256 journal = .ok payloads := by
  have declared := (resumable.pending _ _ isPending).payloads
  rw [isCopy.files] at declared
  have isRead : ∀ file ∈ journal.files, ∃ bytes,
      store.readPayload sha256 journal file = .ok bytes := by
    intro file member
    obtain ⟨bytes, found, isDeclared⟩ := declared file member
    refine ⟨bytes, Store.readPayload_eq_ok.mpr ⟨?_, isDeclared⟩⟩
    rw [isPending]
    exact found
  unfold Store.readPayloads
  generalize journal.files = files at isRead
  induction files with
  | nil => exact ⟨[], rfl⟩
  | cons file rest ih =>
      obtain ⟨bytes, isBytes⟩ := isRead file List.mem_cons_self
      obtain ⟨payloads, arePayloads⟩ := ih fun other member => isRead other (.tail _ member)
      refine ⟨(file.targetPath, bytes) :: payloads, ?_⟩
      rw [List.mapM_cons, isBytes]
      simp only [bind, Except.bind, pure, Except.pure] at arePayloads ⊢
      rw [arePayloads]

end Guards

/-! ### The replay order -/

namespace Store

/-- What `HEAD` has once these journals are committed. -/
def reached (store : Store) (journals : List Journal) : Finset RepositoryPath :=
  store.head.tree.keys ∪ (journals.flatMap Journal.targetPaths).toFinset

/-- After the earlier journals a journal is either finished or not begun, and
what it finds then was in the tree of its recorded base. -/
def Replayable (store : Store) (earlier : List Journal) (journal : Journal) : Prop :=
  (∀ path ∈ journal.targetPaths, path ∈ store.reached earlier) ∨
    (∀ path ∈ journal.eventPaths, path ∉ store.reached earlier) ∧
      ∀ base ∈ journal.baseHeadOid, ∀ path ∈ journal.targetPaths, path ∈ store.reached earlier →
        path ∈ store.head.tree.keys ∧ store.fileAt base path = store.headFile path

instance (store : Store) (earlier : List Journal) (journal : Journal) :
    Decidable (store.Replayable earlier journal) :=
  inferInstanceAs (Decidable (_ ∨ _))

/-- Every journal is replayable when its turn comes. -/
def Orderly (store : Store) (earlier : List Journal) : List Journal → Prop
  | [] => True
  | journal :: rest =>
      store.Replayable earlier journal ∧ Orderly store (earlier ++ [journal]) rest

instance decidableOrderly (store : Store) :
    (earlier journals : List Journal) → Decidable (store.Orderly earlier journals)
  | _, [] => isTrue trivial
  | earlier, _ :: rest =>
      @instDecidableAnd _ _ inferInstance (decidableOrderly store (earlier ++ [_]) rest)

theorem orderly_append {store : Store} {earlier journals more : List Journal} :
    store.Orderly earlier (journals ++ more) ↔
      store.Orderly earlier journals ∧ store.Orderly (earlier ++ journals) more := by
  induction journals generalizing earlier with
  | nil => simp [Orderly]
  | cons journal rest ih => simp [Orderly, ih, and_assoc]

/-- The later store has committed these journals since. -/
structure Extends (start : Store) (journals : List Journal) (store : Store) : Prop where
  kept : ∀ path bytes, start.headFile path = some bytes → store.headFile path = some bytes
  keys : store.head.tree.keys = start.reached journals
  commits : start.commits <+: store.commits

theorem reached_append (store : Store) (journals more : List Journal) :
    store.reached (journals ++ more) =
      store.reached journals ∪ (more.flatMap Journal.targetPaths).toFinset := by
  rw [reached, reached, List.flatMap_append, List.toFinset_append, Finset.union_assoc]

theorem mem_reached_singleton {store : Store} {journal : Journal} {path : RepositoryPath} :
    path ∈ store.reached [journal] ↔
      path ∈ store.head.tree.keys ∨ path ∈ journal.targetPaths := by
  simp [reached]

theorem Extends.refl (store : Store) : store.Extends [] store :=
  ⟨fun _ _ => id, by simp [reached], List.prefix_refl _⟩

theorem Extends.trans {start middle last : Store} {journals more : List Journal}
    (first : start.Extends journals middle) (second : middle.Extends more last) :
    start.Extends (journals ++ more) last := by
  refine ⟨fun path bytes found => second.kept path bytes (first.kept path bytes found), ?_,
    first.commits.trans second.commits⟩
  rw [reached_append, ← first.keys]
  exact second.keys

theorem fileAt_of_prefix {start store : Store} (isPrefix : start.commits <+: store.commits)
    {position : Nat} {path : RepositoryPath} {bytes : Bytes}
    (found : start.fileAt position path = some bytes) : store.fileAt position path = some bytes := by
  obtain ⟨later, commits⟩ := isPrefix
  obtain ⟨commit, isCommit, found⟩ := Option.bind_eq_some_iff.mp found
  refine Option.bind_eq_some_iff.mpr ⟨commit, ?_, found⟩
  rw [← commits, List.getElem?_append_left (List.getElem?_eq_some_iff.mp isCommit).1]
  exact isCommit

/-- A journal stays replayable while the journals before it are committed. -/
theorem Replayable.extend {start store : Store} {earlier : List Journal} {journal : Journal}
    (replayable : start.Replayable earlier journal) (extended : start.Extends earlier store) :
    store.Replayable [] journal := by
  have sameReached : store.reached [] = start.reached earlier := by
    rw [← extended.keys]
    simp [reached]
  rw [Replayable, sameReached]
  refine replayable.imp_right fun ⟨notBegun, based⟩ => ⟨notBegun, ?_⟩
  intro base isBase path isTarget isReached
  obtain ⟨inHead, sameFile⟩ := based base isBase path isTarget isReached
  obtain ⟨bytes, found⟩ := BTreeMap.mem_keys_iff.mp inHead
  have found : start.headFile path = some bytes := found
  rw [found] at sameFile
  have stillFound := extended.kept path bytes found
  rw [stillFound, fileAt_of_prefix extended.commits sameFile]
  exact ⟨BTreeMap.mem_keys_of_get? stillFound, rfl⟩

end Store

/-! ### Committing one journal -/

/-- A program that keeps the store resumable and never refuses. -/
abbrev Recovers (sha256 : Bytes → Digest) (batches : List Journal) {α : Type}
    (before : Store → Prop) (program : Writer α) (after : α → Store → Prop) : Prop :=
  Maintains (fun store => store.Resumable sha256 batches) False before program after

theorem recovers_inspect {α : Type} {before : Store → Prop} {look : Store → Result α}
    (value : Store → α)
    (succeeds : ∀ store, store.Resumable sha256 batches → before store →
      look store = .ok (value store)) :
    Recovers sha256 batches before (inspect look) fun result store =>
      before store ∧ look store = .ok result := by
  apply maintains_inspect
  intro store error resumable started failed
  rw [succeeds store resumable started] at failed
  cases failed

theorem recovers_update {before after : Store → Prop} {step : Store → Result Store}
    (result : Store → Store)
    (stepped : ∀ store, store.Resumable sha256 batches → before store →
      step store = .ok (result store) ∧ (result store).Resumable sha256 batches ∧
        after (result store)) :
    Recovers sha256 batches before (update step) fun _ => after := by
  refine maintains_update (fun store next resumable started taken => ?_)
    fun store error resumable started failed => ?_
  · obtain ⟨isResult, holds⟩ := stepped store resumable started
    rw [isResult] at taken
    exact Except.ok.inj taken ▸ holds
  · rw [(stepped store resumable started).1] at failed
    cases failed

/-- The state of a batch that is being committed, before its commit. -/
structure Store.Working (start : Store) (journal : Journal) (store : Store) : Prop where
  same : start.SameCommits store
  others : ∀ id, id ≠ journal.batchId → store.pending.get? id = start.pending.get? id
  owned : ∀ path ∈ store.additions, path ∈ journal.targetPaths
  owns : ∃ dir, store.Owns journal dir

/-- The state after the commit. -/
structure Store.Published (start : Store) (journal : Journal) (store : Store) : Prop where
  extended : start.Extends [journal] store
  others : ∀ id, id ≠ journal.batchId → store.pending.get? id = start.pending.get? id
  settled : store.additions = ∅
  owns : ∃ dir, store.Owns journal dir

/-- The state after the pending directory is gone. -/
structure Store.Finished (start : Store) (journal : Journal) (store : Store) : Prop where
  extended : start.Extends [journal] store
  pending : ∀ id, store.pending.get? id =
    if id = journal.batchId then none else start.pending.get? id
  settled : store.additions = ∅

theorem recovers_updatePhase {journal : Journal} {before : Store → Prop} {phase : JournalPhase}
    {commitOid : Option CommitOid}
    (owns : ∀ store, before store → ∃ dir, store.Owns journal dir)
    (stable : ∀ store dir, before store →
      Store.Owns { store with pending := store.pending.insert journal.batchId dir } journal dir →
      before { store with pending := store.pending.insert journal.batchId dir }) :
    Recovers sha256 batches before (updatePhase journal phase commitOid) fun _ => before := by
  let written : Journal := { journal with phase, commitOid }
  have sameBatch : written.IsCopyOf journal := ⟨_, phase, commitOid, rfl⟩
  let result : Store → Store := fun store =>
    (store.pending.get? journal.batchId).elim store fun dir =>
      { store with
        pending := store.pending.insert journal.batchId { dir with journal := written } }
  apply recovers_update result
  intro store resumable started
  obtain ⟨dir, isPending, isCopy, sameBase, hasBase⟩ := owns store started
  have continues : PendingDir.Continues { dir with journal := written } dir := by
    refine ⟨?_, rfl, fun hasBase => sameBase ▸ hasBase⟩
    obtain ⟨baseHeadOid, oldPhase, oldCommit, isOld⟩ := isCopy
    exact ⟨journal.baseHeadOid, phase, commitOid, by rw [isOld]⟩
  have inRange := (resumable.pending _ _ isPending).base
  rw [sameBase] at inRange
  have isResult : result store =
      { store with
        pending := store.pending.insert journal.batchId { dir with journal := written } } := by
    simp only [result, isPending, Option.elim_some]
  rw [isResult]
  refine ⟨?_, resumable.rewrite isPending continues inRange, stable store _ started ?_⟩
  · refine Store.writeJournal_eq_ok.mpr ⟨?_, dir, isPending, rfl⟩
    rw [← validateJournal_eq_ok, sameBatch.validateJournal, validateJournal_eq_ok]
    exact resumable.valid_journal isPending isCopy
  · refine ⟨?_, sameBatch, rfl, fun isNone => hasBase (sameBase.trans isNone)⟩
    rw [BTreeMap.get?_insert, if_pos rfl]

section Working

variable {start : Store} {journal : Journal}

theorem Store.Working.update {store : Store} {dir : PendingDir}
    (working : start.Working journal store)
    (owns : Store.Owns { store with pending := store.pending.insert journal.batchId dir } journal
      dir) :
    start.Working journal { store with pending := store.pending.insert journal.batchId dir } := by
  refine ⟨working.same, fun id different => ?_, working.owned, dir, owns⟩
  rw [BTreeMap.get?_insert, if_neg different]
  exact working.others id different

theorem Store.Published.update {store : Store} {dir : PendingDir}
    (published : start.Published journal store)
    (owns : Store.Owns { store with pending := store.pending.insert journal.batchId dir } journal
      dir) :
    start.Published journal
      { store with pending := store.pending.insert journal.batchId dir } := by
  refine ⟨⟨published.extended.kept, published.extended.keys, published.extended.commits⟩,
    fun id different => ?_, published.settled, dir, owns⟩
  rw [BTreeMap.get?_insert, if_neg different]
  exact published.others id different

/-- What the batch still has to add, relative to `HEAD`. -/
theorem Store.mem_allowed {path : RepositoryPath} :
    path ∈ journal.targetPaths.toFinset \ start.headMatches journal ↔
      path ∈ journal.targetPaths ∧ path ∉ start.head.tree.keys := by
  rw [Finset.mem_sdiff, List.mem_toFinset, Store.mem_headMatches]
  tauto

theorem Store.Working.additions_subset {store : Store} (working : start.Working journal store) :
    store.additions ⊆ journal.targetPaths.toFinset \ start.headMatches journal := by
  intro path isStaged
  refine Store.mem_allowed.mpr ⟨working.owned path isStaged, ?_⟩
  rw [← working.same.2]
  exact (Finset.mem_sdiff.mp isStaged).2

theorem recovers_recordBase {dir : PendingDir} (resumable : start.Resumable sha256 batches)
    (isPending : start.pending.get? journal.batchId = some dir) (isJournal : dir.journal = journal)
    (owned : ∀ path ∈ start.additions, path ∈ journal.targetPaths) :
    Recovers sha256 batches (fun store => store = start) (recordBase journal)
      fun reconciled store => start.Working reconciled store ∧ reconciled.IsCopyOf journal ∧
        reconciled.baseHeadOid = some (journal.baseHeadOid.getD start.headOid) ∧
        store.worktree = start.worktree := by
  unfold recordBase
  split
  · rename_i base isBase
    have inRange := (resumable.pending _ _ isPending).base base (isJournal ▸ isBase)
    have isAncestor : ∀ store : Store, store.Resumable sha256 batches → store = start →
        store.isAncestor base = .ok true := by
      rintro store - rfl
      rw [Store.isAncestor, if_pos inRange]
      rfl
    refine maintains_bind _ (recovers_inspect (fun _ => true) isAncestor) fun ancestor => ?_
    split
    · refine maintains_pure ?_
      rintro store ⟨rfl, -⟩
      refine ⟨⟨.refl _, fun _ _ => rfl, owned, dir, isPending, isJournal ▸ .refl _, isJournal ▸ rfl,
        ?_⟩, .refl _, ?_, rfl⟩
      · rw [isJournal, isBase]
        exact Option.some_ne_none base
      · rw [isBase]
        rfl
    · rename_i notAncestor
      have isTrue : ∀ store, store = start ∧ store.isAncestor base = .ok ancestor →
          ancestor = true := by
        rintro store ⟨rfl, looked⟩
        rw [Store.isAncestor, if_pos inRange] at looked
        exact (Except.ok.inj looked).symm
      exact maintains_of_before isTrue fun isTrue => absurd isTrue notAncestor
  · rename_i noBase
    refine maintains_bind _ (recovers_inspect Store.headOid fun _ _ _ => rfl) fun headOid => ?_
    let reconciled : Journal := { journal with baseHeadOid := some headOid }
    have reconciledCopy : reconciled.IsCopyOf journal := ⟨some headOid, _, _, rfl⟩
    let result : Store := { start with
      pending := start.pending.insert journal.batchId { dir with journal := reconciled } }
    have isHead : ∀ store, store = start ∧ (.ok store.headOid : Result CommitOid) = .ok headOid →
        headOid = start.headOid := by
      rintro store ⟨rfl, looked⟩
      exact (Except.ok.inj looked).symm
    refine maintains_of_before isHead fun isHead => ?_
    refine maintains_bind (fun _ store => store = result) (recovers_update (fun _ => result) ?_)
      fun _ => maintains_pure ?_
    · rintro store - ⟨rfl, -⟩
      have continues : PendingDir.Continues { dir with journal := reconciled } dir :=
        ⟨isJournal ▸ reconciledCopy, rfl, fun _ => Option.some_ne_none headOid⟩
      have inRange : ∀ base, reconciled.baseHeadOid = some base → base < store.commits.length := by
        rintro base isBase
        cases isBase
        rw [isHead, Store.commits, List.length_append, List.length_singleton]
        exact Nat.lt_succ_self _
      refine ⟨Store.writeJournal_eq_ok.mpr ⟨?_, dir, isPending, rfl⟩,
        resumable.rewrite isPending continues inRange, rfl⟩
      rw [← validateJournal_eq_ok, reconciledCopy.validateJournal, validateJournal_eq_ok]
      exact resumable.valid_journal isPending (isJournal ▸ .refl _)
    · rintro store rfl
      refine ⟨⟨.refl _, fun id different => ?_, ?_, { dir with journal := reconciled }, ?_, .refl _,
        rfl, Option.some_ne_none headOid⟩, reconciledCopy, ?_, rfl⟩
      · exact (BTreeMap.get?_insert ..).trans (if_neg different)
      · exact owned
      · exact (BTreeMap.get?_insert ..).trans (if_pos rfl)
      · rw [noBase, isHead]
        rfl

/-- The state of the loop that creates files: those it has passed are there. -/
structure Store.Creating (start : Store) (journal : Journal) (recovered : Bool)
    (rest : List PendingFile) (store : Store) : Prop where
  working : start.Working journal store
  distinct : (rest.map PendingFile.targetPath).Nodup
  created : ∀ file ∈ journal.files, file.targetPath ∉ start.head.tree.keys → file ∉ rest →
    file.targetPath ∈ store.worktree.keys
  clear : recovered = false → ∀ file ∈ rest, file.targetPath ∉ start.head.tree.keys →
    file.targetPath ∉ store.worktree.keys

theorem Store.Creating.pass {store : Store} {recovered : Bool} {file : PendingFile}
    {rest : List PendingFile} (creating : start.Creating journal recovered (file :: rest) store)
    (isThere : file.targetPath ∉ start.head.tree.keys →
      file.targetPath ∈ store.worktree.keys) :
    start.Creating journal recovered rest store := by
  refine ⟨creating.working, (List.nodup_cons.mp creating.distinct).2, ?_, ?_⟩
  · intro other member absent notInRest
    by_cases same : other = file
    · subst same
      exact isThere absent
    · exact creating.created other member absent (by simp [same, notInRest])
  · intro isFirst other inRest
    exact creating.clear isFirst other (.tail _ inRest)

theorem recovers_createFile {payloads : List (RepositoryPath × Bytes)} {recovered : Bool}
    {file : PendingFile} (member : file ∈ journal.files)
    (notBegun : ∀ path ∈ journal.eventPaths, path ∉ start.head.tree.keys)
    (isPayload : ∃ payload, payloads.lookup file.targetPath = some payload ∧
      sha256 payload = file.sha256) (rest : List PendingFile) :
    Recovers sha256 batches (start.Creating journal recovered (file :: rest))
      (createFile sha256 payloads (start.headMatches journal) recovered file)
      fun _ => start.Creating journal recovered rest := by
  unfold createFile
  have isTarget : file.targetPath ∈ journal.targetPaths := List.mem_map_of_mem member
  split
  · rename_i matched
    have inHead := (Store.mem_headMatches.mp matched).2
    cases kind : file.kind with
    | event =>
        have isEvent := Journal.mem_eventPaths.mpr ⟨file, member, kind, rfl⟩
        exact absurd inHead (notBegun _ isEvent)
    | object =>
        refine maintains_pure fun store creating => creating.pass fun absent => ?_
        exact absurd inHead absent
  rename_i notMatched
  have absent : file.targetPath ∉ start.head.tree.keys := fun inHead =>
    notMatched (Store.mem_headMatches.mpr ⟨isTarget, inHead⟩)
  refine maintains_bind _ (recovers_inspect (fun store => store.worktree.get? file.targetPath)
    fun _ _ _ => rfl) fun existing => ?_
  cases existing with
  | some bytes =>
      apply maintains_of_start
      rintro store resumable ⟨creating, looked⟩
      have isThere : store.worktree.get? file.targetPath = some bytes := Except.ok.inj looked
      obtain ⟨dir, owns⟩ := creating.working.owns
      have digest := resumable.digest_of_worktree owns.isPending
        (owns.isCopy.files.symm ▸ member) isThere
      simp only [acceptExisting, digest, ne_eq, not_true_eq_false, if_false]
      cases recovered with
      | false =>
          have notThere := creating.clear rfl file List.mem_cons_self absent
          exact absurd (BTreeMap.mem_keys_of_get? isThere) notThere
      | true =>
          refine maintains_pure ?_
          rintro _ rfl
          exact creating.pass fun _ => BTreeMap.mem_keys_of_get? isThere
  | none =>
      let missing : Store → Prop := fun store =>
        start.Creating journal recovered (file :: rest) store ∧
          file.targetPath ∉ store.worktree.keys
      refine maintains_bind (fun _ => missing) (maintains_seam.weaken ?_ fun _ _ => id) fun _ => ?_
      · rintro store ⟨creating, looked⟩
        exact ⟨creating, BTreeMap.not_mem_keys_iff.mpr (Except.ok.inj looked)⟩
      refine maintains_bind (fun _ => start.Creating journal recovered rest) ?_
        fun _ => maintains_seam
      obtain ⟨payload, lookup, digest⟩ := isPayload
      simp only [writePayload, lookup]
      apply recovers_update fun store =>
        { store with worktree := store.worktree.insert file.targetPath payload }
      rintro store resumable ⟨creating, isNew⟩
      obtain ⟨dir, owns⟩ := creating.working.owns
      refine ⟨Store.writeNew_eq_ok.mpr ⟨isNew, rfl⟩, resumable.writeNew owns member digest isNew, ?_⟩
      have inserted : ∀ path, path ∈ (store.worktree.insert file.targetPath payload).keys ↔
          path = file.targetPath ∨ path ∈ store.worktree.keys := by
        intro path
        rw [BTreeMap.mem_keys, BTreeMap.get?_insert, BTreeMap.mem_keys]
        split <;> simp [*]
      have stillWorking : start.Working journal
          { store with worktree := store.worktree.insert file.targetPath payload } :=
        ⟨creating.working.same, creating.working.others, creating.working.owned, dir,
          owns.isPending, owns.isCopy, owns.sameBase, owns.hasBase⟩
      obtain ⟨isFirst, distinct⟩ := List.nodup_cons.mp creating.distinct
      refine ⟨stillWorking, distinct, ?_, ?_⟩
      · intro other isFile otherAbsent notInRest
        by_cases same : other = file
        · exact (inserted _).mpr (.inl (same ▸ rfl))
        · exact (inserted _).mpr (.inr (creating.created other isFile otherAbsent
            (by simp [same, notInRest])))
      · intro fresh other inRest otherAbsent isThere
        rcases (inserted _).mp isThere with sameTarget | isOld
        · exact isFirst (sameTarget ▸ List.mem_map_of_mem inRest)
        · exact creating.clear fresh other (.tail _ inRest) otherAbsent isOld

structure Store.Ready (start : Store) (journal : Journal) (store : Store) : Prop where
  working : start.Working journal store
  isThere : journal.targetPaths.toFinset \ start.headMatches journal ⊆ store.worktree.keys

theorem recovers_stage :
    Recovers sha256 batches (start.Ready journal)
      (update fun store =>
        store.stagePaths (journal.targetPaths.toFinset \ start.headMatches journal))
      fun _ store => start.Ready journal store ∧
        store.additions = journal.targetPaths.toFinset \ start.headMatches journal := by
  let allowed := journal.targetPaths.toFinset \ start.headMatches journal
  apply recovers_update fun store =>
    { store with index := Tree.overlay store.index store.worktree allowed }
  rintro store resumable ⟨working, isThere⟩
  obtain ⟨dir, owns⟩ := working.owns
  have areNew : ∀ path ∈ allowed, path ∈ journal.targetPaths ∧ path ∉ store.head.tree.keys := by
    intro path isAllowed
    rw [working.same.2]
    exact Store.mem_allowed.mp isAllowed
  have additions : Store.additions
      { store with index := Tree.overlay store.index store.worktree allowed } = allowed := by
    ext path
    rw [Store.additions, Finset.mem_sdiff, BTreeMap.mem_keys, Tree.get?_overlay]
    split
    · rename_i isAllowed
      rw [← BTreeMap.mem_keys]
      exact ⟨fun _ => isAllowed, fun _ => ⟨isThere isAllowed, (areNew path isAllowed).2⟩⟩
    · rename_i notAllowed
      rw [← BTreeMap.mem_keys, ← Finset.mem_sdiff]
      exact ⟨fun isStaged => working.additions_subset isStaged, fun isAllowed =>
        absurd isAllowed notAllowed⟩
  refine ⟨Store.stagePaths_eq_ok.mpr ⟨isThere.trans Finset.subset_union_left, rfl⟩,
    resumable.stage owns working.owned areNew, ⟨⟨working.same, working.others, ?_, dir,
      owns.isPending, owns.isCopy, owns.sameBase, owns.hasBase⟩, isThere⟩, additions⟩
  rw [additions]
  exact fun path isAllowed => (areNew path isAllowed).1

theorem recovers_commit (begins : ∃ path ∈ journal.eventPaths, path ∉ start.head.tree.keys) :
    Recovers sha256 batches
      (fun store => start.Ready journal store ∧
        store.additions = journal.targetPaths.toFinset \ start.headMatches journal)
      (update fun store => store.commitPaths journal.batchId
        (journal.targetPaths.toFinset \ start.headMatches journal))
      fun _ => start.Published journal := by
  let allowed := journal.targetPaths.toFinset \ start.headMatches journal
  apply recovers_update fun store =>
    { store with
      history := store.commits
      head := ⟨Tree.overlay store.head.tree store.worktree allowed, some journal.batchId⟩
      index := Tree.overlay store.index store.worktree allowed }
  rintro store resumable ⟨⟨working, isThere⟩, additions⟩
  obtain ⟨dir, owns⟩ := working.owns
  have areNew : ∀ path ∈ allowed, path ∈ journal.targetPaths ∧ path ∉ store.head.tree.keys := by
    intro path isAllowed
    rw [working.same.2]
    exact Store.mem_allowed.mp isAllowed
  obtain ⟨path, isEvent, absent⟩ := begins
  obtain ⟨file, member, -, target⟩ := Journal.mem_eventPaths.mp isEvent
  have isAllowed : path ∈ allowed :=
    Store.mem_allowed.mpr ⟨target ▸ List.mem_map_of_mem member, absent⟩
  have keys : (Tree.overlay store.head.tree store.worktree allowed).keys =
      start.reached [journal] := by
    ext other
    rw [Store.mem_reached_singleton, BTreeMap.mem_keys, Tree.get?_overlay, ← working.same.2]
    split
    · rename_i isNew
      rw [← BTreeMap.mem_keys]
      exact ⟨fun _ => .inr (areNew other isNew).1, fun _ => isThere isNew⟩
    · rename_i notNew
      rw [← BTreeMap.mem_keys]
      refine ⟨.inl, fun isReached => ?_⟩
      by_contra notInHead
      refine notNew (Store.mem_allowed.mpr ⟨isReached.resolve_left notInHead, ?_⟩)
      rw [← working.same.2]
      exact notInHead
  have isChange : Tree.overlay store.head.tree store.worktree allowed ≠ store.head.tree := by
    intro unchanged
    apply (areNew path isAllowed).2
    rw [← unchanged, keys, Store.mem_reached_singleton]
    exact .inr (areNew path isAllowed).1
  refine ⟨Store.commitPaths_eq_ok.mpr ⟨Finset.ne_empty_of_mem isAllowed, ?_, isChange, rfl⟩,
    resumable.commit owns areNew additions.subset journal.batchId,
    ⟨?_, keys, ?_⟩, working.others, Store.additions_commit additions.subset journal.batchId, dir,
    owns.isPending, owns.isCopy, owns.sameBase, owns.hasBase⟩
  · intro other isNew
    rw [← additions] at isNew
    exact (Finset.mem_sdiff.mp isNew).1
  · intro other bytes found
    change (Tree.overlay store.head.tree store.worktree allowed).get? other = some bytes
    rw [Tree.get?_overlay, if_neg, working.same.2]
    · exact found
    · exact fun isNew => (Store.mem_allowed.mp isNew).2 (BTreeMap.mem_keys_of_get? found)
  · change start.commits <+: store.commits ++ [_]
    rw [show store.commits = start.commits by
      rw [Store.commits, Store.commits, working.same.1, working.same.2]]
    exact List.prefix_append _ _

theorem recovers_stageAndCommit
    (begins : ∃ path ∈ journal.eventPaths, path ∉ start.head.tree.keys) :
    Recovers sha256 batches (start.Ready journal)
      (stageAndCommit sha256 journal (journal.targetPaths.toFinset \ start.headMatches journal))
      fun _ => start.Published journal := by
  let staged : Store → Prop := fun store => start.Ready journal store ∧
    store.additions = journal.targetPaths.toFinset \ start.headMatches journal
  unfold stageAndCommit
  refine maintains_bind (fun _ => start.Ready journal) (recovers_updatePhase ?_ ?_) fun _ => ?_
  · exact fun store ready => ready.working.owns
  · exact fun store dir ready owns => ⟨ready.working.update owns, ready.isThere⟩
  refine maintains_bind _ maintains_seam fun _ => ?_
  refine maintains_bind (fun _ => staged) recovers_stage fun _ => ?_
  refine maintains_bind _ maintains_seam fun _ => ?_
  refine maintains_bind (fun _ => staged) (recovers_updatePhase ?_ ?_) fun _ => ?_
  · exact fun store isStaged => isStaged.1.working.owns
  · exact fun store dir isStaged owns =>
      ⟨⟨isStaged.1.working.update owns, isStaged.1.isThere⟩, isStaged.2⟩
  refine maintains_bind (fun _ => staged)
    ((recovers_inspect (fun _ => ()) ?_).weaken (fun _ => id) fun _ _ => And.left) fun _ => ?_
  · rintro store resumable ⟨⟨working, isThere⟩, additions⟩
    obtain ⟨dir, owns⟩ := working.owns
    refine Result.seq_eq_ok.mpr ⟨Result.require_eq_ok.mpr ⟨fun path isStaged => ?_, ?_⟩, ?_⟩
    · rw [resumable.keys_stagedFromHead] at isStaged
      rw [resumable.get?_stagedFromHead, if_pos isStaged]
    · rw [resumable.keys_stagedFromHead, additions]
    · exact resumable.rejectForeignStaged owns.isPending owns.isCopy working.owned additions.subset
  refine maintains_bind _ maintains_seam fun _ => ?_
  exact maintains_bind _ (recovers_commit begins) fun _ => maintains_seam

theorem Store.Published.complete {store : Store} (published : start.Published journal store)
    (resumable : store.Resumable sha256 batches) : store.Complete sha256 journal := by
  obtain ⟨dir, owns⟩ := published.owns
  have agrees := (resumable.pending _ _ owns.isPending).agrees
  rw [owns.isCopy.files] at agrees
  intro file member
  have isTarget : file.targetPath ∈ journal.targetPaths := List.mem_map_of_mem member
  have inHead : file.targetPath ∈ store.head.tree.keys := by
    rw [published.extended.keys, Store.mem_reached_singleton]
    exact .inr isTarget
  obtain ⟨bytes, found⟩ := BTreeMap.mem_keys_iff.mp inHead
  exact ⟨bytes, found, agrees file member bytes found⟩

theorem Store.get?_cleanup (store : Store) (id : BatchId) :
    (store.cleanup journal).pending.get? id =
      if id = journal.batchId then none else store.pending.get? id := by
  ext dir
  change ((store.pending.filter _).get? id = some dir) ↔ _
  rw [BTreeMap.get?_filter_eq_some]
  split <;> simp [*]

theorem recovers_publish {eventPath : RepositoryPath} {recovered : Bool} :
    Recovers sha256 batches (start.Published journal) (publish journal eventPath recovered)
      fun _ => start.Finished journal := by
  have owns := fun store (published : start.Published journal store) => published.owns
  have stable := fun store dir (published : start.Published journal store)
    (owns : Store.Owns { store with pending := store.pending.insert journal.batchId dir } journal
      dir) => published.update owns
  unfold publish
  refine maintains_bind (fun _ => start.Published journal)
    ((recovers_inspect Store.headOid fun _ _ _ => rfl).weaken (fun _ => id) fun _ _ => And.left)
    fun commitOid => ?_
  refine maintains_bind _ maintains_seam fun _ => ?_
  refine maintains_bind _ (recovers_updatePhase owns stable) fun _ => ?_
  refine maintains_bind _ maintains_seam fun _ => ?_
  refine maintains_bind _ maintains_seam fun _ => ?_
  refine maintains_bind _ maintains_seam fun _ => ?_
  refine maintains_bind _ (recovers_updatePhase owns stable) fun _ => ?_
  refine maintains_bind _ maintains_seam fun _ => ?_
  refine maintains_bind (fun _ => start.Finished journal)
    (recovers_update (fun store => store.cleanup journal) ?_) fun _ => ?_
  · intro store resumable published
    obtain ⟨dir, isPending, isCopy, -, -⟩ := published.owns
    refine ⟨rfl, resumable.cleanup (published.complete resumable) ?_, ?_⟩
    · intro other isOther
      rw [isPending] at isOther
      exact Option.some.inj isOther ▸ isCopy
    · refine ⟨⟨published.extended.kept, published.extended.keys, published.extended.commits⟩,
        fun id => ?_, published.settled⟩
      rw [Store.get?_cleanup]
      split
      · rfl
      · rename_i different
        exact published.others id different
  refine maintains_bind _ maintains_seam fun _ => ?_
  exact maintains_pure fun _ finished => finished

theorem recovers_appendFiles {dir : PendingDir} {eventPath : RepositoryPath} {recovered : Bool}
    (resumable : start.Resumable sha256 batches)
    (isPending : start.pending.get? journal.batchId = some dir) (isJournal : dir.journal = journal)
    (owned : ∀ path ∈ start.additions, path ∈ journal.targetPaths)
    (notBegun : ∀ path ∈ journal.eventPaths, path ∉ start.head.tree.keys)
    (begins : journal.eventPaths.Nonempty)
    (based : ∀ base, journal.baseHeadOid = some base → ∀ path ∈ journal.targetPaths,
      ∀ bytes, start.headFile path = some bytes → start.fileAt base path = some bytes)
    (clear : recovered = false → ∀ path ∈ journal.targetPaths,
      path ∉ start.head.tree.keys → path ∉ start.worktree.keys) :
    Recovers sha256 batches (fun store => store = start)
      (appendFiles sha256 journal eventPath (start.headMatches journal) recovered)
      fun _ => start.Finished journal := by
  unfold appendFiles
  refine maintains_bind _ (recovers_recordBase resumable isPending isJournal owned)
    fun reconciled => ?_
  apply maintains_of_before fun _ started => And.intro started.2.1 started.2.2.1
  rintro ⟨sameBatch, isBase⟩
  obtain ⟨_, _, _, isReconciled⟩ := sameBatch
  -- The recorded base changes neither the files nor what `HEAD` has of them.
  have sameFiles : reconciled.files = journal.files := by rw [isReconciled]
  have sameTargets : reconciled.targetPaths = journal.targetPaths := by
    rw [Journal.targetPaths, Journal.targetPaths, sameFiles]
  have sameEvents : reconciled.eventPaths = journal.eventPaths := by
    rw [Journal.eventPaths, Journal.eventPaths, sameFiles]
  have sameId : reconciled.batchId = journal.batchId := by rw [isReconciled]
  have sameMatches : start.headMatches journal = start.headMatches reconciled := by
    rw [Store.headMatches, Store.headMatches, sameTargets]
  rw [sameMatches]
  let unchanged : Store → Prop := fun store =>
    start.Working reconciled store ∧ store.worktree = start.worktree
  have checked := (resumable.pending _ _ isPending).agrees
  rw [isJournal, ← sameFiles] at checked
  refine maintains_bind (fun _ => unchanged)
    ((recovers_inspect (fun _ => ()) ?_).weaken (fun _ started => ⟨started.1, started.2.2.2⟩)
      fun _ _ => And.left) fun _ => ?_
  · rintro store - ⟨working, -⟩
    rw [isBase, Option.getD_some, Store.checkBaseline_eq_ok]
    intro file member matched
    obtain ⟨isTarget, inHead⟩ := Store.mem_headMatches.mp matched
    obtain ⟨bytes, found⟩ := BTreeMap.mem_keys_iff.mp inHead
    have atBase : start.fileAt (journal.baseHeadOid.getD start.headOid) file.targetPath =
        some bytes := by
      cases hasBase : journal.baseHeadOid with
      | some base => exact based base hasBase _ (sameTargets ▸ isTarget) bytes found
      | none =>
          rw [Option.getD_none, Store.fileAt_head]
          exact found
    have sameCommits : store.commits = start.commits := by
      rw [Store.commits, Store.commits, working.same.1, working.same.2]
    rw [Store.fileAt, sameCommits, ← Store.fileAt, atBase, Option.map_some,
      checked file member bytes found]
  refine maintains_bind _ (maintains_inspect fun store error resumable started failed => ?_)
    fun payloads => ?_
  · obtain ⟨other, owns⟩ := started.1.owns
    obtain ⟨payloads, isRead⟩ := resumable.readPayloads owns.isPending owns.isCopy
    rw [isRead] at failed
    cases failed
  apply maintains_of_start
  rintro reading - ⟨⟨working, sameWorktree⟩, isRead⟩
  have validJournal := resumable.valid_journal isPending (isJournal ▸ .refl _)
  have distinct : reconciled.targetPaths.Nodup := sameTargets ▸ validJournal.targets
  have isPayload : ∀ file ∈ reconciled.files, ∃ payload,
      payloads.lookup file.targetPath = some payload ∧ sha256 payload = file.sha256 := by
    intro file member
    obtain ⟨payload, isFound, isPayload⟩ := lookup_readPayloads distinct isRead file member
    exact ⟨payload, isFound, (Store.readPayload_eq_ok.mp isPayload).2.2⟩
  refine maintains_bind (fun _ => unchanged) ((recovers_inspect (fun _ => ()) ?_).weaken
    (fun _ => id) fun _ _ ended => ended.1 ▸ ⟨working, sameWorktree⟩) fun _ => ?_
  · rintro store resumable rfl
    obtain ⟨other, owns⟩ := working.owns
    exact resumable.rejectForeignStaged owns.isPending owns.isCopy working.owned
      working.additions_subset
  have notBegunYet : ∀ path ∈ reconciled.eventPaths, path ∉ start.head.tree.keys :=
    sameEvents ▸ notBegun
  refine maintains_bind _
    ((maintains_forEach (start.Creating reconciled recovered) fun file member rest =>
      recovers_createFile member notBegunYet (isPayload file member) rest).weaken ?_
      fun _ _ => id) fun _ => ?_
  · rintro store ⟨working, sameWorktree⟩
    refine ⟨working, distinct, fun file member _ notListed => absurd member notListed, ?_⟩
    intro isFirst file member absent
    rw [sameWorktree]
    exact clear isFirst _ (sameTargets ▸ List.mem_map_of_mem member) absent
  refine maintains_bind _ ((recovers_stageAndCommit ?_).weaken ?_ fun _ _ => id) fun _ => ?_
  · obtain ⟨path, isEvent⟩ := begins
    exact ⟨path, sameEvents ▸ isEvent, notBegun path isEvent⟩
  · intro store creating
    refine ⟨creating.working, fun path isAllowed => ?_⟩
    obtain ⟨isTarget, absent⟩ := Store.mem_allowed.mp isAllowed
    obtain ⟨file, member, rfl⟩ := List.mem_map.mp isTarget
    exact creating.created file member absent List.not_mem_nil
  refine recovers_publish.weaken (fun _ => id) fun _ store finished => ?_
  refine ⟨⟨finished.extended.kept, ?_, finished.extended.commits⟩, ?_, finished.settled⟩
  · rw [finished.extended.keys]
    simp [Store.reached, sameTargets]
  · rw [← sameId]
    exact finished.pending

theorem recovers_commitJournalLocked {dir : PendingDir} {recovered : Bool}
    (resumable : start.Resumable sha256 batches)
    (isPending : start.pending.get? journal.batchId = some dir) (isJournal : dir.journal = journal)
    (owned : ∀ path ∈ start.additions, path ∈ journal.targetPaths)
    (replayable : start.Replayable [] journal)
    (clear : recovered = false → ∀ path ∈ journal.targetPaths,
      path ∉ start.head.tree.keys → path ∉ start.worktree.keys) :
    Recovers sha256 batches (fun store => store = start)
      (commitJournalLocked sha256 journal recovered) fun _ => start.Finished journal := by
  have isCopy : dir.journal.IsCopyOf journal := isJournal ▸ .refl _
  have valid := resumable.valid_journal isPending isCopy
  have isReached : ∀ path, path ∈ start.reached [] ↔ path ∈ start.head.tree.keys := by
    intro path
    simp [Store.reached]
  obtain ⟨event, isEvent⟩ : ∃ event ∈ journal.files, event.kind = .event := by
    have declared : journal.eventId ∈ journal.observedEventIds.toFinset := by
      rw [valid.observed]
      exact List.mem_toFinset.mpr List.mem_cons_self
    obtain ⟨file, member, isId⟩ := List.mem_filterMap.mp (List.mem_toFinset.mp declared)
    refine ⟨file, member, ?_⟩
    cases kind : file.kind with
    | event => rfl
    | object => simp [Journal.fileEventId?, kind] at isId
  obtain ⟨first, isFirst⟩ : ∃ first, journal.files.find? (fun file => file.kind = .event) =
      some first :=
    Option.isSome_iff_exists.mp (List.find?_isSome.mpr ⟨event, isEvent.1, by simp [isEvent.2]⟩)
  have firstMember := List.mem_of_find?_eq_some isFirst
  have firstIsEvent : first.kind = .event := by
    have found := List.find?_some isFirst
    exact of_decide_eq_true found
  have firstEvent : first.targetPath ∈ journal.eventPaths :=
    Journal.mem_eventPaths.mpr ⟨first, firstMember, firstIsEvent, rfl⟩
  unfold commitJournalLocked
  refine maintains_bind (fun _ store => store = start) ((recovers_inspect (fun _ => ()) ?_).weaken
    (fun _ => id) fun _ _ => And.left) fun _ => ?_
  · exact fun _ _ _ => validateJournal_eq_ok.mpr valid
  refine maintains_bind (fun _ store => store = start) ((recovers_inspect (fun _ => ()) ?_).weaken
    (fun _ => id) fun _ _ => And.left) fun _ => ?_
  · rintro store resumable rfl
    exact resumable.rejectManagedChanges owned
  refine maintains_bind (fun _ store => store = start) ((recovers_inspect (fun _ => ()) ?_).weaken
    (fun _ => id) fun _ _ => And.left) fun _ => ?_
  · rintro store resumable rfl
    exact resumable.checkHead isPending isCopy
  refine maintains_bind (fun headMatches store => store = start ∧
    headMatches = start.headMatches journal) ((recovers_inspect (fun store =>
      store.headMatches journal) fun _ _ _ => rfl).weaken (fun _ => id) ?_) fun headMatches => ?_
  · rintro headMatches store ⟨rfl, isMatches⟩
    exact ⟨rfl, (Except.ok.inj isMatches).symm⟩
  apply maintains_of_before fun _ started => started.2
  rintro rfl
  refine maintains_bind (fun eventPath store => store = start ∧ eventPath = first.targetPath)
    ((recovers_inspect (fun _ => first.targetPath) ?_).weaken (fun _ => And.left) ?_)
    fun eventPath => ?_
  · intro _ _ _
    rw [eventPath, isFirst]
    rfl
  · rintro found store ⟨rfl, isFound⟩
    rw [eventPath, isFirst] at isFound
    exact ⟨rfl, (Except.ok.inj isFound).symm⟩
  apply maintains_of_before fun _ started => started.2
  rintro rfl
  split
  · rename_i matched
    have inHead := (Store.mem_headMatches.mp matched).2
    have allReached : ∀ path ∈ journal.targetPaths, path ∈ start.head.tree.keys := by
      rcases replayable with finished | ⟨notBegun, -⟩
      · exact fun path isTarget => (isReached path).mp (finished path isTarget)
      · exact absurd ((isReached _).mpr inHead) (notBegun _ firstEvent)
    have allMatched : (start.headMatches journal).card = journal.files.length := by
      have whole : start.headMatches journal = journal.targetPaths.toFinset := by
        ext path
        rw [Store.mem_headMatches, List.mem_toFinset]
        exact ⟨And.left, fun isTarget => ⟨isTarget, allReached path isTarget⟩⟩
      rw [whole, List.toFinset_card_of_nodup valid.targets, Journal.targetPaths, List.length_map]
    have agrees := (resumable.pending _ _ isPending).agrees
    rw [isJournal] at agrees
    have complete : start.Complete sha256 journal := by
      intro file member
      obtain ⟨bytes, found⟩ :=
        BTreeMap.mem_keys_iff.mp (allReached _ (List.mem_map_of_mem member))
      exact ⟨bytes, found, agrees file member bytes found⟩
    have settled : start.additions = ∅ :=
      Finset.eq_empty_of_forall_notMem fun path isStaged =>
        (Finset.mem_sdiff.mp isStaged).2 (allReached path (owned path isStaged))
    rw [finishCommitted, if_neg (not_not.mpr allMatched)]
    refine maintains_bind (fun _ store => store = start) ((recovers_inspect Store.headOid
      fun _ _ _ => rfl).weaken (fun _ => And.left) fun _ _ => And.left) fun _ => ?_
    refine maintains_bind (fun _ => start.Finished journal)
      (recovers_update (fun store => store.cleanup journal) ?_) fun _ => maintains_pure fun _ => id
    rintro store resumable rfl
    refine ⟨rfl, resumable.cleanup complete ?_, ⟨fun _ _ => id, ?_, List.prefix_refl _⟩,
      fun id => Store.get?_cleanup store id, settled⟩
    · intro other isOther
      rw [isPending] at isOther
      exact Option.some.inj isOther ▸ isCopy
    · ext path
      rw [Store.mem_reached_singleton]
      exact ⟨.inl, fun either => either.elim id (allReached path)⟩
  · rename_i notMatched
    have notInHead : first.targetPath ∉ start.head.tree.keys := fun inHead =>
      notMatched (Store.mem_headMatches.mpr ⟨List.mem_map_of_mem firstMember, inHead⟩)
    have notFinished : ¬ ∀ path ∈ journal.targetPaths, path ∈ start.reached [] := fun finished =>
      notInHead ((isReached _).mp (finished _ (List.mem_map_of_mem firstMember)))
    obtain ⟨notBegun, based⟩ := replayable.resolve_left notFinished
    refine (recovers_appendFiles resumable isPending isJournal owned ?_ ⟨_, firstEvent⟩ ?_
      clear).weaken (fun _ => And.left) fun _ _ => id
    · exact fun path isEvent inHead => notBegun path isEvent ((isReached path).mpr inHead)
    · intro base isBase path isTarget bytes found
      obtain ⟨-, sameFile⟩ := based base isBase path isTarget
        ((isReached path).mpr (BTreeMap.mem_keys_of_get? found))
      exact sameFile.trans found

end Working

end SharedContext
