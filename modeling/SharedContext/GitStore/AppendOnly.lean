import SharedContext.GitStore.Batch
import Mathlib.Data.List.Chain

/-!
# Append-only history

Whatever the writer does and wherever it stops, the commits only grow by
commits that each append one journaled batch: they keep every file, add only
files of that batch with the declared digests, and add all of its events.
-/

namespace SharedContext

open Interruptible

/-- One commit that adds the missing files of a journal and all of its events. -/
structure Commit.Appends (sha256 : Bytes → Digest) (before after : Commit) (journal : Journal) :
    Prop where
  named : after.batchId = some journal.batchId
  kept : ∀ path bytes, before.tree.get? path = some bytes → after.tree.get? path = some bytes
  added : ∀ path ∈ after.tree.keys, path ∈ before.tree.keys ∨ path ∈ journal.targetPaths
  declared : ∀ file ∈ journal.files, ∃ bytes, after.tree.get? file.targetPath = some bytes ∧
    sha256 bytes = file.sha256
  events : ∀ file ∈ journal.files, file.kind = .event → file.targetPath ∉ before.tree.keys

/-- The commits since the origin each append one of the journals, and
everything pending is one of them. -/
structure Store.Safe (sha256 : Bytes → Digest) (journals : List Journal)
    (store origin : Store) : Prop where
  grows : ∃ later, store.commits = origin.commits ++ later ∧
    (origin.head :: later).IsChain fun before after =>
      ∃ journal ∈ journals, before.Appends sha256 after journal
  pending : ∀ id dir, store.pending.get? id = some dir →
    ∃ original ∈ journals, dir.journal.IsCopyOf original

def Store.SameCommits (start store : Store) : Prop :=
  store.history = start.history ∧ store.head = start.head

theorem Store.SameCommits.refl (store : Store) : store.SameCommits store :=
  ⟨rfl, rfl⟩

variable {sha256 : Bytes → Digest} {journals : List Journal} {origin : Store}

theorem Store.Safe.of_same {store next : Store} (safe : store.Safe sha256 journals origin)
    (same : store.SameCommits next) (samePending : next.pending = store.pending) :
    next.Safe sha256 journals origin := by
  have sameCommits : next.commits = store.commits := by
    rw [Store.commits, Store.commits, same.1, same.2]
  refine ⟨sameCommits ▸ safe.grows, ?_⟩
  rw [samePending]
  exact safe.pending

theorem Store.Safe.insert_pending {store : Store} (safe : store.Safe sha256 journals origin)
    {id : BatchId} {dir : PendingDir}
    (isCopy : ∃ original ∈ journals, dir.journal.IsCopyOf original) :
    Store.Safe sha256 journals { store with pending := store.pending.insert id dir } origin := by
  refine ⟨safe.grows, fun other found isFound => ?_⟩
  rw [BTreeMap.get?_insert] at isFound
  split at isFound
  · rw [← Option.some.inj isFound]
    exact isCopy
  · exact safe.pending other found isFound

theorem Store.Safe.cleanup {store : Store} (safe : store.Safe sha256 journals origin)
    (journal : Journal) : (store.cleanup journal).Safe sha256 journals origin :=
  ⟨safe.grows, fun id dir found =>
    safe.pending id dir (BTreeMap.get?_filter_eq_some.mp found).1⟩

theorem Store.Safe.commit {store next : Store} (safe : store.Safe sha256 journals origin)
    {journal : Journal} (isJournal : journal ∈ journals)
    (appends : store.head.Appends sha256 next.head journal)
    (history : next.history = store.commits) (samePending : next.pending = store.pending) :
    next.Safe sha256 journals origin := by
  obtain ⟨later, commits, chain⟩ := safe.grows
  refine ⟨⟨later ++ [next.head], ?_, ?_⟩, samePending ▸ safe.pending⟩
  · rw [Store.commits, history, commits, List.append_assoc]
  have lastHead : (origin.head :: later).getLast? = some store.head := by
    have sameLast := congrArg List.getLast? commits
    rw [Store.commits, Store.commits, List.append_assoc, List.singleton_append,
      List.getLast?_concat, List.getLast?_append_cons] at sameLast
    exact sameLast.symm
  rw [← List.cons_append, List.isChain_append]
  refine ⟨chain, .singleton _, fun before isLast after isNext => ?_⟩
  rw [lastHead] at isLast
  cases isLast
  cases isNext
  exact ⟨journal, isJournal, appends⟩

/-! ### Programs that keep the history safe -/

/-- A safe store stays safe wherever the program stops. -/
abbrev Guarded (sha256 : Bytes → Digest) (journals : List Journal) (origin : Store) {α : Type}
    (before : Store → Prop) (program : Writer α) (after : α → Store → Prop) : Prop :=
  Maintains (fun store => store.Safe sha256 journals origin) True before program after

section Rules

variable {α : Type} {before : Store → Prop}

theorem guarded_refuse {after : α → Store → Prop} {error : Error} :
    Guarded sha256 journals origin before (refuse error) after :=
  maintains_refuse trivial

theorem guarded_inspect {look : Store → Result α} :
    Guarded sha256 journals origin before (inspect look)
      fun result store => before store ∧ look store = .ok result :=
  maintains_inspect fun _ _ _ _ _ => trivial

theorem guarded_update {step : Store → Result Store} {after : Store → Prop}
    (stepped : ∀ store next, store.Safe sha256 journals origin → before store →
      step store = .ok next → next.Safe sha256 journals origin ∧ after next) :
    Guarded sha256 journals origin before (update step) fun _ => after :=
  maintains_update stepped fun _ _ _ _ _ => trivial

end Rules

/-! ### Committing one journal -/

section Commit

variable {original journal : Journal} (isJournal : original ∈ journals)
  (isCopy : journal.IsCopyOf original)
include isJournal isCopy

theorem guarded_writeJournal {before : Store → Prop}
    (stable : ∀ store pending, before store → before { store with pending }) :
    Guarded sha256 journals origin before (update fun store => store.writeJournal journal)
      fun _ => before := by
  apply guarded_update
  intro store next safe holds written
  obtain ⟨-, dir, -, rfl⟩ := Store.writeJournal_eq_ok.mp written
  exact ⟨safe.insert_pending ⟨original, isJournal, isCopy⟩, stable _ _ holds⟩

theorem guarded_updatePhase {before : Store → Prop} {phase : JournalPhase}
    {commitOid : Option CommitOid}
    (stable : ∀ store pending, before store → before { store with pending }) :
    Guarded sha256 journals origin before (updatePhase journal phase commitOid) fun _ => before :=
  guarded_writeJournal isJournal (isCopy.update journal.baseHeadOid phase commitOid) stable

theorem guarded_recordBase {start : Store} :
    Guarded sha256 journals origin (start.SameCommits ·) (recordBase journal)
      fun reconciled store => start.SameCommits store ∧ reconciled.IsCopyOf original := by
  unfold recordBase
  split
  · refine maintains_bind _ guarded_inspect fun ancestor => ?_
    split
    · exact maintains_pure fun _ started => ⟨started.1, isCopy⟩
    · exact guarded_refuse
  · refine maintains_bind _ guarded_inspect fun headOid => ?_
    have reconciledCopy := isCopy.update (some headOid) journal.phase journal.commitOid
    refine maintains_bind _ (guarded_writeJournal isJournal reconciledCopy fun _ _ => id) fun _ => ?_
    exact maintains_pure fun _ started => ⟨started.1, reconciledCopy⟩

end Commit

/-- A journaled file that is ready to be committed. -/
def Store.HasFile (sha256 : Bytes → Digest) (headMatches : Finset RepositoryPath) (store : Store)
    (file : PendingFile) : Prop :=
  (file.targetPath ∈ headMatches ∧ file.kind = .object) ∨
    file.targetPath ∉ headMatches ∧
      ∃ bytes, store.worktree.get? file.targetPath = some bytes ∧ sha256 bytes = file.sha256

theorem Store.HasFile.writeNew {headMatches : Finset RepositoryPath} {store next : Store}
    {file : PendingFile} (has : store.HasFile sha256 headMatches file) {path : RepositoryPath}
    {payload : Bytes} (written : store.writeNew path payload = .ok next) :
    next.HasFile sha256 headMatches file := by
  obtain ⟨isNew, rfl⟩ := Store.writeNew_eq_ok.mp written
  refine has.imp_right fun ⟨notMatched, bytes, found, declared⟩ => ⟨notMatched, bytes, ?_, declared⟩
  have different : file.targetPath ≠ path := by
    rintro rfl
    exact isNew (BTreeMap.mem_keys_of_get? found)
  rw [BTreeMap.get?_insert, if_neg different]
  exact found

theorem lookup_readPayloads {store : Store} {journal : Journal}
    {payloads : List (RepositoryPath × Bytes)}
    (distinct : journal.targetPaths.Nodup)
    (isRead : store.readPayloads sha256 journal = .ok payloads) :
    ∀ file ∈ journal.files, ∃ payload, payloads.lookup file.targetPath = some payload ∧
      store.readPayload sha256 journal file = .ok payload := by
  unfold Store.readPayloads Journal.targetPaths at *
  generalize journal.files = files at *
  induction files generalizing payloads with
  | nil => simp
  | cons file rest ih =>
      rw [List.mapM_cons] at isRead
      obtain ⟨entry, isEntry, isRead⟩ := Result.bind_eq_ok.mp isRead
      obtain ⟨payload, isPayload, same⟩ := Result.bind_eq_ok.mp isEntry
      obtain ⟨others, areOthers, isRead⟩ := Result.bind_eq_ok.mp isRead
      cases same
      cases isRead
      obtain ⟨isFirst, distinct⟩ := List.nodup_cons.mp distinct
      intro other member
      rcases List.mem_cons.mp member with rfl | inRest
      · exact ⟨payload, List.lookup_cons_self, isPayload⟩
      · obtain ⟨found, lookup, isFound⟩ := ih distinct areOthers other inRest
        have different : other.targetPath ≠ file.targetPath := by
          intro same
          exact isFirst (same ▸ List.mem_map_of_mem inRest)
        refine ⟨found, ?_, isFound⟩
        rw [List.lookup_cons, beq_false_of_ne different]
        exact lookup

theorem guarded_createFile (start : Store) {payloads : List (RepositoryPath × Bytes)}
    {headMatches : Finset RepositoryPath} {recovered : Bool} {file : PendingFile}
    (ready : List PendingFile)
    (declared : ∀ payload, payloads.lookup file.targetPath = some payload →
      sha256 payload = file.sha256) :
    Guarded sha256 journals origin
      (fun store => start.SameCommits store ∧ ∀ other ∈ ready, store.HasFile sha256 headMatches other)
      (createFile sha256 payloads headMatches recovered file)
      fun _ store => start.SameCommits store ∧
        ∀ other ∈ file :: ready, store.HasFile sha256 headMatches other := by
  unfold createFile
  split
  · rename_i matched
    split
    · exact guarded_refuse
    · rename_i isObject
      refine maintains_pure fun store started => ⟨started.1, List.forall_mem_cons.mpr ⟨?_, started.2⟩⟩
      exact .inl ⟨matched, not_not.mp isObject⟩
  rename_i notMatched
  refine maintains_bind _ guarded_inspect fun existing => ?_
  split
  · rename_i bytes
    unfold acceptExisting
    split
    · exact guarded_refuse
    rename_i sameDigest
    split
    · split <;> exact guarded_refuse
    · refine maintains_pure fun store started => ⟨started.1.1, List.forall_mem_cons.mpr ⟨?_, started.1.2⟩⟩
      exact .inr ⟨notMatched, bytes, Except.ok.inj started.2, not_not.mp sameDigest⟩
  · refine maintains_bind (fun _ store => start.SameCommits store ∧
      ∀ other ∈ ready, store.HasFile sha256 headMatches other)
      (maintains_seam.weaken (fun _ started => started.1) fun _ _ => id) fun _ => ?_
    refine maintains_bind (fun _ store => start.SameCommits store ∧
      ∀ other ∈ file :: ready, store.HasFile sha256 headMatches other) ?_ fun _ => maintains_seam
    unfold writePayload
    split
    · rename_i payload isPayload
      apply guarded_update
      intro store next safe started written
      have others := fun other member => (started.2 other member).writeNew written
      obtain ⟨isNew, rfl⟩ := Store.writeNew_eq_ok.mp written
      refine ⟨safe.of_same ⟨rfl, rfl⟩ rfl, started.1, List.forall_mem_cons.mpr ⟨?_, others⟩⟩
      refine .inr ⟨notMatched, payload, ?_, declared payload isPayload⟩
      rw [BTreeMap.get?_insert, if_pos rfl]
    · exact guarded_refuse

theorem appends_of_ready {start store : Store} {journal : Journal}
    (same : start.SameCommits store)
    (declared : start.checkHead sha256 journal = .ok ())
    (ready : ∀ file ∈ journal.files, store.HasFile sha256 (start.headMatches journal) file) :
    start.head.Appends sha256
      ⟨Tree.overlay store.head.tree store.worktree
        (journal.targetPaths.toFinset \ start.headMatches journal), some journal.batchId⟩
      journal := by
  have allowed : ∀ path, path ∈ journal.targetPaths.toFinset \ start.headMatches journal ↔
      path ∈ journal.targetPaths ∧ path ∉ start.head.tree.keys := by
    intro path
    rw [Finset.mem_sdiff, List.mem_toFinset, Store.mem_headMatches]
    tauto
  have isTarget : ∀ file ∈ journal.files, file.targetPath ∈ journal.targetPaths :=
    fun file => List.mem_map_of_mem
  refine ⟨rfl, ?_, ?_, ?_, ?_⟩
  · intro path bytes found
    have notAllowed := fun member => ((allowed path).mp member).2 (BTreeMap.mem_keys_of_get? found)
    rw [Tree.get?_overlay, if_neg notAllowed, same.2]
    exact found
  · intro path member
    by_cases isAllowed : path ∈ journal.targetPaths.toFinset \ start.headMatches journal
    · exact .inr ((allowed path).mp isAllowed).1
    · rw [BTreeMap.mem_keys, Tree.get?_overlay, if_neg isAllowed, same.2, ← BTreeMap.mem_keys]
        at member
      exact .inl member
  · intro file member
    rcases ready file member with ⟨matched, -⟩ | ⟨notMatched, bytes, found, isDeclared⟩
    · have inHead := (Store.mem_headMatches.mp matched).2
      obtain ⟨bytes, found⟩ := BTreeMap.mem_keys_iff.mp inHead
      refine ⟨bytes, ?_, Store.checkHead_eq_ok.mp declared file member bytes found⟩
      rw [Tree.get?_overlay, if_neg fun member => ((allowed _).mp member).2 inHead, same.2]
      exact found
    · have isAllowed := Finset.mem_sdiff.mpr
        ⟨List.mem_toFinset.mpr (isTarget file member), notMatched⟩
      refine ⟨bytes, ?_, isDeclared⟩
      rw [Tree.get?_overlay, if_pos isAllowed]
      exact found
  · intro file member isEvent inHead
    rcases ready file member with ⟨-, isObject⟩ | ⟨notMatched, -⟩
    · rw [isEvent] at isObject
      cases isObject
    · exact notMatched (Store.mem_headMatches.mpr ⟨isTarget file member, inHead⟩)

theorem Commit.Appends.of_copy {before after : Commit} {copy original : Journal}
    (isCopy : copy.IsCopyOf original) (appends : before.Appends sha256 after copy) :
    before.Appends sha256 after original := by
  obtain ⟨_, _, _, rfl⟩ := isCopy
  exact ⟨appends.named, appends.kept, appends.added, appends.declared, appends.events⟩

section Commit

variable {original journal : Journal} (isJournal : original ∈ journals)
  (isCopy : journal.IsCopyOf original)
include isJournal isCopy

theorem guarded_stageAndCommit {start : Store}
    (declared : start.checkHead sha256 journal = .ok ()) :
    Guarded sha256 journals origin
      (fun store => start.SameCommits store ∧
        ∀ file ∈ journal.files, store.HasFile sha256 (start.headMatches journal) file)
      (stageAndCommit sha256 journal (journal.targetPaths.toFinset \ start.headMatches journal))
      fun _ _ => True := by
  let ready : Store → Prop := fun store => start.SameCommits store ∧
    ∀ file ∈ journal.files, store.HasFile sha256 (start.headMatches journal) file
  unfold stageAndCommit
  refine maintains_bind (fun _ => ready)
    (guarded_updatePhase isJournal isCopy fun _ _ => id) fun _ => ?_
  refine maintains_bind (fun _ => ready) maintains_seam fun _ => ?_
  refine maintains_bind (fun _ => ready) (guarded_update ?_) fun _ => ?_
  · intro store next safe isReady staged
    obtain ⟨-, rfl⟩ := Store.stagePaths_eq_ok.mp staged
    exact ⟨safe.of_same ⟨rfl, rfl⟩ rfl, isReady⟩
  refine maintains_bind (fun _ => ready) maintains_seam fun _ => ?_
  refine maintains_bind (fun _ => ready)
    (guarded_updatePhase isJournal isCopy fun _ _ => id) fun _ => ?_
  refine maintains_bind (fun _ => ready)
    (guarded_inspect.weaken (fun _ => id) fun _ _ ended => ended.1) fun _ => ?_
  refine maintains_bind (fun _ => ready) maintains_seam fun _ => ?_
  refine maintains_bind (fun _ _ => True) (guarded_update ?_) fun _ => maintains_seam
  intro store next safe isReady committed
  obtain ⟨-, -, -, rfl⟩ := Store.commitPaths_eq_ok.mp committed
  have appends := (appends_of_ready isReady.1 declared isReady.2).of_copy isCopy
  rw [← isReady.1.2] at appends
  exact ⟨safe.commit isJournal appends rfl rfl, trivial⟩

theorem guarded_publish {eventPath : RepositoryPath} {recovered : Bool} :
    Guarded sha256 journals origin (fun _ => True) (publish journal eventPath recovered)
      fun _ _ => True := by
  unfold publish
  refine maintains_bind (fun _ _ => True)
    (guarded_inspect.weaken (fun _ => id) fun _ _ _ => trivial) fun commitOid => ?_
  refine maintains_bind _ maintains_seam fun _ => ?_
  refine maintains_bind (fun _ _ => True)
    (guarded_updatePhase isJournal isCopy fun _ _ => id) fun _ => ?_
  refine maintains_bind _ maintains_seam fun _ => ?_
  refine maintains_bind _ maintains_seam fun _ => ?_
  refine maintains_bind _ maintains_seam fun _ => ?_
  refine maintains_bind (fun _ _ => True)
    (guarded_updatePhase isJournal isCopy fun _ _ => id) fun _ => ?_
  refine maintains_bind _ maintains_seam fun _ => ?_
  refine maintains_bind (fun _ _ => True) (guarded_update ?_) fun _ => ?_
  · rintro store next safe - cleaned
    obtain rfl := Except.ok.inj cleaned
    exact ⟨safe.cleanup journal, trivial⟩
  refine maintains_bind _ maintains_seam fun _ => ?_
  exact maintains_pure fun _ _ => trivial

theorem guarded_appendFiles {start : Store} {eventPath : RepositoryPath} {recovered : Bool}
    (valid : journal.Valid) (declared : start.checkHead sha256 journal = .ok ()) :
    Guarded sha256 journals origin (start.SameCommits ·)
      (appendFiles sha256 journal eventPath (start.headMatches journal) recovered)
      fun _ _ => True := by
  unfold appendFiles
  refine maintains_bind _ (guarded_recordBase isJournal isCopy) fun reconciled => ?_
  apply maintains_of_before fun _ started => started.2
  intro sameBatch
  -- The recorded base changes neither the files nor what `HEAD` has of them.
  have sameFiles : reconciled.files = journal.files := sameBatch.files.trans isCopy.files.symm
  have sameMatches : start.headMatches journal = start.headMatches reconciled := by
    rw [Store.headMatches, Store.headMatches, Journal.targetPaths, Journal.targetPaths, sameFiles]
  have distinct : reconciled.targetPaths.Nodup := by
    rw [Journal.targetPaths, sameFiles]
    exact valid.targets
  have reconciledDeclared : start.checkHead sha256 reconciled = .ok () := by
    rw [Store.checkHead, sameFiles]
    exact declared
  rw [sameMatches]
  refine maintains_bind (fun _ => (start.SameCommits ·))
    (guarded_inspect.weaken (fun _ => And.left) fun _ _ ended => ended.1) fun _ => ?_
  refine maintains_bind _ guarded_inspect fun payloads => ?_
  apply maintains_of_start
  intro reading _ started
  have isPayload : ∀ file ∈ reconciled.files, ∀ payload,
      payloads.lookup file.targetPath = some payload → sha256 payload = file.sha256 := by
    intro file member payload lookup
    obtain ⟨found, isFound, isRead⟩ := lookup_readPayloads distinct started.2 file member
    rw [lookup] at isFound
    rw [Option.some.inj isFound]
    exact (Store.readPayload_eq_ok.mp isRead).2.2
  refine maintains_bind (fun _ => (start.SameCommits ·))
    (guarded_inspect.weaken (fun _ => id) fun _ _ ended => ended.1 ▸ started.1) fun _ => ?_
  -- The loop leaves every file it has passed ready.
  let left : List PendingFile → Store → Prop := fun rest store => start.SameCommits store ∧
    ∃ ready : List PendingFile, (∀ file ∈ reconciled.files, file ∈ rest ∨ file ∈ ready) ∧
      ∀ file ∈ ready, store.HasFile sha256 (start.headMatches reconciled) file
  have eachFile : ∀ file ∈ reconciled.files, ∀ rest, Guarded sha256 journals origin
      (left (file :: rest))
      (createFile sha256 payloads (start.headMatches reconciled) recovered file)
      fun _ => left rest := by
    intro file member rest
    apply maintains_of_start
    rintro current - ⟨same, ready, covered, areReady⟩
    refine (guarded_createFile start ready (isPayload file member)).weaken ?_ ?_
    · rintro store rfl
      exact ⟨same, areReady⟩
    · rintro - store ⟨stillSame, nowReady⟩
      refine ⟨stillSame, file :: ready, fun other isFile => ?_, nowReady⟩
      rw [List.mem_cons]
      rcases covered other isFile with inRest | isReady
      · rcases List.mem_cons.mp inRest with isThis | inTail
        · exact .inr (.inl isThis)
        · exact .inl inTail
      · exact .inr (.inr isReady)
  refine maintains_bind (fun _ => left [])
    ((maintains_forEach left eachFile).weaken ?_ fun _ _ => id) fun _ => ?_
  · intro store same
    exact ⟨same, [], fun file member => .inl member, fun _ member => absurd member List.not_mem_nil⟩
  refine maintains_bind (fun _ _ => True)
    ((guarded_stageAndCommit isJournal sameBatch reconciledDeclared).weaken ?_ fun _ _ => id)
    fun _ => guarded_publish isJournal sameBatch
  rintro store ⟨same, ready, covered, areReady⟩
  exact ⟨same, fun file member =>
    areReady file ((covered file member).resolve_left List.not_mem_nil)⟩

theorem guarded_commitJournalLocked {recovered : Bool} :
    Guarded sha256 journals origin (fun _ => True) (commitJournalLocked sha256 journal recovered)
      fun _ _ => True := by
  apply maintains_of_start
  rintro start - -
  unfold commitJournalLocked
  refine maintains_bind _ guarded_inspect fun _ => ?_
  apply maintains_of_before fun _ started => started.2
  intro checked
  have valid := validateJournal_eq_ok.mp checked
  refine maintains_bind (fun _ store => store = start)
    (guarded_inspect.weaken (fun _ => And.left) fun _ _ ended => ended.1) fun _ => ?_
  refine maintains_bind (fun _ store => store = start ∧ start.checkHead sha256 journal = .ok ())
    (guarded_inspect.weaken (fun _ => id) ?_) fun _ => ?_
  · rintro ⟨⟩ store ⟨rfl, declared⟩
    exact ⟨rfl, declared⟩
  apply maintains_of_before fun _ started => started.2
  intro declared
  refine maintains_bind (fun headMatches store => store = start ∧
    headMatches = start.headMatches journal) (guarded_inspect.weaken (fun _ => And.left) ?_)
    fun headMatches => ?_
  · rintro headMatches store ⟨rfl, isMatches⟩
    exact ⟨rfl, (Except.ok.inj isMatches).symm⟩
  apply maintains_of_before fun _ started => started.2
  rintro rfl
  refine maintains_bind (fun _ store => store = start)
    (guarded_inspect.weaken (fun _ => And.left) fun _ _ ended => ended.1) fun eventPath => ?_
  split
  · unfold finishCommitted
    split
    · exact guarded_refuse
    refine maintains_bind (fun _ _ => True)
      (guarded_inspect.weaken (fun _ => id) fun _ _ _ => trivial) fun _ => ?_
    refine maintains_bind (fun _ _ => True) (guarded_update ?_) fun _ => maintains_pure fun _ _ => trivial
    rintro store next safe - cleaned
    obtain rfl := Except.ok.inj cleaned
    exact ⟨safe.cleanup journal, trivial⟩
  · refine (guarded_appendFiles isJournal isCopy valid declared).weaken ?_ fun _ _ => id
    rintro store rfl
    exact Store.SameCommits.refl store

end Commit

/-! ### Recovery and appending -/

theorem guarded_recoverAllLocked {exclude : Option BatchId} :
    Guarded sha256 journals origin (fun _ => True) (recoverAllLocked sha256 exclude)
      fun _ _ => True := by
  unfold recoverAllLocked
  apply maintains_of_start
  rintro start safe -
  let order := recoveryOrder start.stagedFromHead.keys
    (start.readJournals.filter fun journal => exclude ≠ some journal.batchId)
  have areJournals : ∀ journal ∈ order, ∃ original ∈ journals, journal.IsCopyOf original := by
    intro journal member
    have isPending := (List.mem_filter.mp ((recoveryOrder_perm _ _).mem_iff.mp member)).1
    obtain ⟨dir, isDir, rfl⟩ := List.mem_map.mp isPending
    obtain ⟨id, found⟩ := BTreeMap.mem_values.mp isDir
    exact safe.pending id dir found
  refine maintains_bind (fun found _ => found = order) (guarded_inspect.weaken (fun _ => id) ?_)
    fun found => ?_
  · rintro found store ⟨rfl, isOrder⟩
    exact (Except.ok.inj isOrder).symm
  apply maintains_of_before fun _ started => started
  rintro rfl
  refine (maintains_gather (fun _ _ => True) ?_).weaken (fun _ _ => trivial) fun _ _ => id
  intro journal member _
  obtain ⟨original, isJournal, isCopy⟩ := areJournals journal member
  exact guarded_commitJournalLocked isJournal isCopy

theorem guarded_appendLocked {original journal : Journal} (isJournal : original ∈ journals)
    (isCopy : journal.IsCopyOf original) :
    Guarded sha256 journals origin (fun _ => True) (appendLocked sha256 journal)
      fun _ _ => True := by
  unfold appendLocked
  refine maintains_bind (fun _ _ => True) guarded_recoverAllLocked fun _ => ?_
  exact guarded_commitJournalLocked isJournal isCopy

end SharedContext
