import SharedContext.GitStore.Replay
import Mathlib.Data.List.TakeWhile

/-!
# Crash recovery

When every journal, in the order of the replay, finds either all of its files
in `HEAD` or none of its events, and had the objects it finds when it recorded
its base, then recovery commits every batch, whatever interrupted the attempts
before it.  A batch that is replayed first can take an object from a batch
that has recorded its base without it; that one is then refused for good.
-/

namespace SharedContext

open Interruptible
open Relation (ReflTransGen)

variable {sha256 : Bytes → Digest} {batches : List Journal} {start : Store}

/-! ### The order of the replay -/

/-- The pending journals in the order in which a recovery replays them. -/
def Store.replayOrder (store : Store) (exclude : Option BatchId) : List Journal :=
  recoveryOrder store.stagedFromHead.keys
    (store.readJournals.filter fun journal => exclude ≠ some journal.batchId)

theorem head?_swapToFront (covers : Journal → Bool) {journals : List Journal}
    {journal : Journal} (member : journal ∈ journals) (isCovered : covers journal = true) :
    ∃ first, (swapToFront covers journals).head? = some first ∧ covers first = true := by
  have whole := List.takeWhile_append_dropWhile (p := fun journal => !covers journal)
    (l := journals)
  have dropped : journals.dropWhile (fun journal => !covers journal) ≠ [] := by
    intro allDropped
    have notCovered := List.dropWhile_eq_nil_iff.mp allDropped journal member
    simp [isCovered] at notCovered
  obtain ⟨found, after, isDropped⟩ := List.exists_cons_of_ne_nil dropped
  have foundCovers : covers found = true := by
    have firstDropped := List.head_dropWhile_not (fun journal => !covers journal) dropped
    simp only [isDropped, List.head_cons, Bool.not_eq_false'] at firstDropped
    exact firstDropped
  unfold swapToFront
  split
  · rename_i first before found' after' isSpan
    rw [List.span_eq_takeWhile_dropWhile, isDropped, Prod.mk.injEq, List.cons.injEq] at isSpan
    exact ⟨found', rfl, isSpan.2.1 ▸ foundCovers⟩
  · rename_i noSwap
    cases taken : journals.takeWhile fun journal => !covers journal with
    | nil =>
        rw [taken, isDropped, List.nil_append] at whole
        exact ⟨found, by rw [← whole]; rfl, foundCovers⟩
    | cons first before =>
        exact absurd (by rw [List.span_eq_takeWhile_dropWhile, taken, isDropped])
          (noSwap first before found after)

section Order

variable (resumable : start.Resumable sha256 batches) {exclude : Option BatchId}
include resumable

theorem Store.Resumable.mem_replayOrder {journal : Journal} :
    journal ∈ start.replayOrder exclude ↔
      ∃ dir, start.pending.get? journal.batchId = some dir ∧ dir.journal = journal ∧
        exclude ≠ some journal.batchId := by
  rw [Store.replayOrder, (recoveryOrder_perm _ _).mem_iff, List.mem_filter, decide_eq_true_eq,
    Store.readJournals, List.mem_map]
  constructor
  · rintro ⟨⟨dir, isDir, rfl⟩, notExcluded⟩
    obtain ⟨id, isPending⟩ := BTreeMap.mem_values.mp isDir
    have named := (resumable.pending id dir isPending).named
    exact ⟨dir, named ▸ isPending, rfl, notExcluded⟩
  · rintro ⟨dir, isPending, rfl, notExcluded⟩
    exact ⟨⟨dir, BTreeMap.mem_values.mpr ⟨_, isPending⟩, rfl⟩, notExcluded⟩

theorem Store.Resumable.nodup_replayOrder :
    ((start.replayOrder exclude).map Journal.batchId).Nodup := by
  rw [Store.replayOrder, ((recoveryOrder_perm _ _).map _).nodup_iff, Store.readJournals]
  have distinct : (start.pending.values.map fun dir => dir.journal.batchId).Nodup :=
    BTreeMap.nodup_map_values fun id dir isPending => (resumable.pending id dir isPending).named
  rw [show (fun dir : PendingDir => dir.journal.batchId) = Journal.batchId ∘ PendingDir.journal
    from rfl, ← List.map_map] at distinct
  exact distinct.sublist ((List.filter_sublist).map _)

theorem Store.Resumable.head?_replayOrder
    (excluded : ∀ id dir, exclude = some id → start.pending.get? id = some dir →
      dir.journal.baseHeadOid = none) :
    ∀ path ∈ start.additions, ∃ journal, (start.replayOrder exclude).head? = some journal ∧
      path ∈ journal.targetPaths := by
  intro path isStaged
  rcases resumable.staged with none | ⟨id, dir, isPending, hasBase, owned⟩
  · rw [none] at isStaged
    cases isStaged
  have named := (resumable.pending id dir isPending).named
  have notExcluded : exclude ≠ some dir.journal.batchId := fun isExcluded =>
    hasBase (excluded _ dir isExcluded (named.symm ▸ isPending))
  have covered : decide (start.additions ⊆ dir.journal.targetPaths.toFinset) = true :=
    decide_eq_true fun other isAddition => List.mem_toFinset.mpr (owned other isAddition).1
  have isListed : dir.journal ∈
      start.readJournals.filter fun journal => exclude ≠ some journal.batchId :=
    List.mem_filter.mpr ⟨List.mem_map_of_mem (BTreeMap.mem_values.mpr ⟨id, isPending⟩),
      decide_eq_true notExcluded⟩
  obtain ⟨first, isFirst, isCovered⟩ := head?_swapToFront
    (fun journal => decide (start.additions ⊆ journal.targetPaths.toFinset)) isListed covered
  refine ⟨first, ?_, List.mem_toFinset.mp (of_decide_eq_true isCovered isStaged)⟩
  rw [Store.replayOrder, resumable.keys_stagedFromHead, recoveryOrder,
    if_neg (Finset.ne_empty_of_mem isStaged)]
  exact isFirst

end Order

/-! ### Replaying what is pending -/

/-- The replay has passed the earlier journals and is left with the rest. -/
structure Store.Replaying (start : Store) (order rest earlier : List Journal) (store : Store) :
    Prop where
  isOrder : order = earlier ++ rest
  extended : start.Extends earlier store
  orderly : start.Orderly earlier rest
  pending : ∀ id, store.pending.get? id =
    if id ∈ earlier.map Journal.batchId then none else start.pending.get? id
  staged : ∀ path ∈ store.additions, ∃ journal, rest.head? = some journal ∧
    path ∈ journal.targetPaths

theorem recovers_replay {order : List Journal} (distinct : (order.map Journal.batchId).Nodup)
    {journal : Journal} {dir : PendingDir}
    (isPending : start.pending.get? journal.batchId = some dir) (isJournal : dir.journal = journal)
    (rest : List Journal) :
    Recovers sha256 batches
      (fun store => ∃ earlier, start.Replaying order (journal :: rest) earlier store)
      (commitJournalLocked sha256 journal true)
      fun _ store => ∃ earlier, start.Replaying order rest earlier store := by
  apply maintains_of_start
  rintro middle resumable ⟨earlier, rfl, extended, ⟨replayable, orderly⟩, pending, staged⟩
  have notEarlier : journal.batchId ∉ earlier.map Journal.batchId := by
    intro isEarlier
    rw [List.map_append, List.nodup_append] at distinct
    exact distinct.2.2 _ isEarlier _ List.mem_cons_self rfl
  have stillPending : middle.pending.get? journal.batchId = some dir := by
    rw [pending, if_neg notEarlier]
    exact isPending
  have owned : ∀ path ∈ middle.additions, path ∈ journal.targetPaths := by
    intro path isStaged
    obtain ⟨first, isFirst, isTarget⟩ := staged path isStaged
    cases isFirst
    exact isTarget
  refine (recovers_commitJournalLocked resumable stillPending isJournal owned
    (replayable.extend extended) fun isFirst => absurd isFirst Bool.true_eq_false.mp).weaken
    (fun _ => id) fun _ store finished => ?_
  refine ⟨earlier ++ [journal], ?_, extended.trans finished.extended, orderly, fun id => ?_, ?_⟩
  · rw [List.append_assoc, List.singleton_append]
  · rw [finished.pending, pending, List.map_append, List.map_singleton]
    by_cases isThis : id = journal.batchId
    · simp [isThis]
    · simp [isThis]
  · rw [finished.settled]
    exact fun path isStaged => absurd isStaged (Finset.notMem_empty path)

/-- The pending journals are all committed, but for the excluded one. -/
structure Store.Recovered (start : Store) (exclude : Option BatchId) (store : Store) : Prop where
  extended : start.Extends (start.replayOrder exclude) store
  pending : ∀ id, store.pending.get? id =
    if exclude = some id then start.pending.get? id else none
  settled : store.additions = ∅

theorem recovers_recoverAllLocked {exclude : Option BatchId}
    (resumable : start.Resumable sha256 batches)
    (excluded : ∀ id dir, exclude = some id → start.pending.get? id = some dir →
      dir.journal.baseHeadOid = none)
    (orderly : start.Orderly [] (start.replayOrder exclude)) :
    Recovers sha256 batches (fun store => store = start) (recoverAllLocked sha256 exclude)
      fun _ => start.Recovered exclude := by
  unfold recoverAllLocked
  refine maintains_bind (fun order store => store = start ∧ order = start.replayOrder exclude)
    ((recovers_inspect (fun store => store.replayOrder exclude) fun _ _ _ => rfl).weaken
      (fun _ => id) ?_) fun order => ?_
  · rintro order store ⟨rfl, isOrder⟩
    exact ⟨rfl, (Except.ok.inj isOrder).symm⟩
  apply maintains_of_before fun _ started => started.2
  rintro rfl
  let order := start.replayOrder exclude
  refine (maintains_gather (fun rest store => ∃ earlier, start.Replaying order rest earlier store)
    ?_).weaken ?_ ?_
  · intro journal member rest
    obtain ⟨dir, isPending, isJournal, -⟩ := resumable.mem_replayOrder.mp member
    exact recovers_replay resumable.nodup_replayOrder isPending isJournal rest
  · rintro store ⟨rfl, -⟩
    exact ⟨[], rfl, .refl store, orderly, fun id => (if_neg List.not_mem_nil).symm,
      resumable.head?_replayOrder excluded⟩
  · rintro - store ⟨earlier, isOrder, extended, -, pending, staged⟩
    rw [List.append_nil] at isOrder
    subst isOrder
    refine ⟨extended, fun id => ?_, Finset.eq_empty_of_forall_notMem fun path isStaged => ?_⟩
    · rw [pending]
      by_cases isExcluded : exclude = some id
      · rw [if_pos isExcluded, if_neg]
        intro isReplayed
        obtain ⟨journal, member, rfl⟩ := List.mem_map.mp isReplayed
        obtain ⟨-, -, -, notExcluded⟩ := resumable.mem_replayOrder.mp member
        exact notExcluded isExcluded
      · rw [if_neg isExcluded, ite_eq_left_iff]
        intro notReplayed
        by_contra isPending
        obtain ⟨dir, isPending⟩ := Option.ne_none_iff_exists'.mp isPending
        have named := (resumable.pending id dir isPending).named
        apply notReplayed
        refine List.mem_map.mpr ⟨dir.journal, resumable.mem_replayOrder.mpr ?_, named⟩
        rw [named]
        exact ⟨dir, isPending, rfl, isExcluded⟩
    · obtain ⟨journal, isFirst, -⟩ := staged path isStaged
      cases isFirst

theorem recovers_recoverPending (resumable : start.Resumable sha256 batches)
    (orderly : start.Orderly [] (start.replayOrder none)) :
    Recovers sha256 batches (fun store => store = start) (recoverPending sha256)
      fun _ store => store.pending = .empty := by
  refine (recovers_recoverAllLocked resumable ?_ orderly).weaken (fun _ => id)
    fun _ store recovered => ?_
  · rintro id dir isExcluded
    cases isExcluded
  · ext1 id
    rw [recovered.pending, if_neg (Option.some_ne_none id).symm]
    rfl

theorem recovers_appendLocked {batch : PreparedBatch sha256}
    (resumable : start.Resumable sha256 batches)
    (isPending : start.pending.get? batch.journal.batchId = some ⟨batch.journal, batch.payloads⟩)
    (orderly : start.Orderly []
      (start.replayOrder (some batch.journal.batchId) ++ [batch.journal])) :
    Recovers sha256 batches (fun store => store = start) (appendLocked sha256 batch.journal)
      fun _ store => store.pending = .empty := by
  obtain ⟨orderlyBefore, replayable, -⟩ := Store.orderly_append.mp orderly
  rw [List.nil_append] at replayable
  unfold appendLocked
  refine maintains_bind (fun _ => start.Recovered (some batch.journal.batchId))
    (recovers_recoverAllLocked resumable ?_ orderlyBefore) fun _ => ?_
  · rintro id dir ⟨⟩ isOwn
    rw [isPending] at isOwn
    cases isOwn
    exact batch.noBase
  apply maintains_of_start
  rintro middle middleResumable ⟨extended, pending, settled⟩
  have isOwn : ∀ id dir, middle.pending.get? id = some dir →
      id = batch.journal.batchId ∧ dir.journal = batch.journal := by
    intro id dir found
    rw [pending] at found
    split at found
    · rename_i same
      cases same
      rw [isPending] at found
      cases found
      exact ⟨rfl, rfl⟩
    · cases found
  have stillPending : middle.pending.get? batch.journal.batchId =
      some ⟨batch.journal, batch.payloads⟩ := by
    rw [pending, if_pos rfl, isPending]
  refine (recovers_commitJournalLocked middleResumable stillPending rfl ?_
    (replayable.extend extended) ?_).weaken (fun _ => id) fun _ store finished => ?_
  · rw [settled]
    exact fun path isStaged => absurd isStaged (Finset.notMem_empty path)
  · -- Only batches with a base have created files, and this one has none.
    intro _ path isTarget absent isThere
    obtain ⟨bytes, isThere⟩ := BTreeMap.mem_keys_iff.mp isThere
    obtain ⟨id, dir, isPending, hasBase, -⟩ := middleResumable.created path bytes
      (batch.valid.isManaged isTarget) (BTreeMap.not_mem_keys_iff.mp absent) isThere
    rw [(isOwn id dir isPending).2] at hasBase
    exact hasBase batch.noBase
  · ext1 id
    rw [finished.pending]
    split
    · rfl
    · rename_i different
      cases found : middle.pending.get? id with
      | none => rfl
      | some dir => exact absurd (isOwn id dir found).1 different

/-! ### Runs of interrupted attempts -/

/-- A repository without pending batches, whose objects are content-addressed
and whose working tree and index are those of `HEAD`. -/
structure Store.Clean (sha256 : Bytes → Digest) (store : Store) : Prop where
  pending : store.pending = .empty
  index : store.index = store.head.tree
  worktree : ∀ path, path.isManaged = true → store.worktree.get? path = store.headFile path
  addressed : ∀ digest bytes, store.headFile (.object digest) = some bytes →
    sha256 bytes = digest

theorem Store.Clean.resumable (clean : start.Clean sha256) : start.Resumable sha256 [] := by
  have noPending : ∀ id dir, start.pending.get? id ≠ some dir := by
    intro id dir found
    rw [clean.pending] at found
    cases found
  refine ⟨clean.addressed, ?_, ?_, ?_, ?_, ?_, .inl ?_, nofun⟩
  · exact fun id dir found => absurd found (noPending id dir)
  · exact fun id dir _ _ found => absurd found (noPending id dir)
  · exact fun path bytes managed found => (clean.worktree path managed).trans found
  · intro path bytes managed absent found
    rw [clean.worktree path managed, absent] at found
    cases found
  · intro path bytes found
    rw [Store.indexFile, clean.index]
    exact found
  · rw [Store.additions, clean.index, Finset.sdiff_self]

namespace System

/-- One append or recovery, as far as it got, in which every journal is
replayable when its turn comes. -/
inductive Attempt : System sha256 → System sha256 → Prop
  | append {system : System sha256} {batch : PreparedBatch sha256} {journaled : Store}
      (budget : Option Nat)
      (created : system.store.createPending sha256 batch = .ok journaled)
      (admits : system.store.Admits sha256 batch.journal)
      (orderly : journaled.Orderly []
        (journaled.replayOrder (some batch.journal.batchId) ++ [batch.journal])) :
      Attempt system
        ⟨system.store.after (appendBatch sha256 batch) budget, batch :: system.prepared⟩
  | recover {system : System sha256} (budget : Option Nat)
      (orderly : system.store.Orderly [] (system.store.replayOrder none)) :
      Attempt system ⟨system.store.after (recoverPending sha256) budget, system.prepared⟩

theorem after_appendBatch {store journaled : Store} {batch : PreparedBatch sha256}
    (created : store.createPending sha256 batch = .ok journaled) (budget : Option Nat) :
    store.after (appendBatch sha256 batch) budget =
      journaled.after (do
        seam .afterJournal
        appendLocked sha256 batch.journal) budget := by
  simp only [Store.after, appendBatch, bind, update, created]

theorem Attempt.resumable {system next : System sha256} (attempt : Attempt system next)
    (resumable : system.store.Resumable sha256 system.journals) :
    next.store.Resumable sha256 next.journals := by
  cases attempt with
  | @append batch journaled budget created admits orderly =>
      obtain ⟨isNew, rfl⟩ := Store.createPending_eq_ok.mp created
      have started := resumable.createPending isNew admits
      rw [after_appendBatch created]
      have isPending : (system.store.pending.insert batch.journal.batchId
          ⟨batch.journal, batch.payloads⟩).get? batch.journal.batchId =
            some ⟨batch.journal, batch.payloads⟩ := by
        rw [BTreeMap.get?_insert, if_pos rfl]
      exact (maintains_bind _ maintains_seam fun _ =>
        recovers_appendLocked started isPending orderly).final ⟨_, budget⟩ started rfl
  | recover budget orderly =>
      exact (recovers_recoverPending resumable orderly).final ⟨_, budget⟩ resumable rfl

theorem Attempt.safe {system next : System sha256} {origin : Store}
    (attempt : Attempt system next) (safe : system.store.Safe sha256 system.journals origin) :
    next.store.Safe sha256 next.journals origin := by
  cases attempt with
  | @append batch journaled budget created admits orderly =>
      rw [after_appendBatch created]
      obtain ⟨-, rfl⟩ := Store.createPending_eq_ok.mp created
      have isJournal : batch.journal ∈ batch.journal :: system.journals := List.mem_cons_self
      have started : Store.Safe sha256 (batch.journal :: system.journals)
          { system.store with
            pending := system.store.pending.insert batch.journal.batchId
              ⟨batch.journal, batch.payloads⟩ } origin :=
        (safe.mono (List.subset_cons_self batch.journal _)).insert_pending
          ⟨batch.journal, isJournal, .refl _⟩
      exact Guarded.after (maintains_bind (fun _ _ => True) maintains_seam fun _ =>
        guarded_appendLocked isJournal (.refl _)) started budget
  | recover budget orderly => exact guarded_recoverAllLocked.after safe budget

def AttemptRun : System sha256 → System sha256 → Prop :=
  ReflTransGen Attempt

theorem AttemptRun.resumable {first last : System sha256} (run : AttemptRun first last)
    (resumable : first.store.Resumable sha256 first.journals) :
    last.store.Resumable sha256 last.journals := by
  induction run with
  | refl => exact resumable
  | tail _ attempt ih => exact attempt.resumable ih

theorem AttemptRun.safe {first last : System sha256} (run : AttemptRun first last)
    (accounted : first.Accounted) : last.store.Safe sha256 last.journals first.store := by
  induction run with
  | refl => exact ⟨⟨[], (List.append_nil _).symm, .singleton _⟩, accounted⟩
  | tail _ attempt ih => exact attempt.safe ih

end System

/-- After any run of interrupted attempts whose journals are replayable when
their turn comes, one recovery that is not interrupted succeeds: no journal is
left, and every batch is in `HEAD`, each of its events by exactly one commit. -/
theorem recovers_every_batch (clean : start.Clean sha256) {system : System sha256}
    (run : System.AttemptRun ⟨start, []⟩ system)
    (orderly : system.store.Orderly [] (system.store.replayOrder none)) :
    ∃ outcomes final, recoverPending sha256 ⟨system.store, none⟩ = (.ok outcomes, ⟨final, none⟩) ∧
      final.pending = .empty ∧
      ∀ batch ∈ system.prepared, final.Complete sha256 batch.journal ∧
        ∀ path ∈ batch.journal.eventPaths, start.headFile path = none →
          ∃! position, final.Enters start path position := by
  have resumable := run.resumable clean.resumable
  have safe : system.store.Safe sha256 system.journals start := run.safe fun id dir found => by
    rw [clean.pending] at found
    cases found
  obtain ⟨outcomes, final, isRun, finalResumable, noPending⟩ :=
    (recovers_recoverPending resumable orderly).finishes resumable rfl
  have isFinal : system.store.after (recoverPending sha256) none = final := by
    rw [Store.after, isRun]
  have finalSafe := isFinal ▸ guarded_recoverAllLocked.after safe none
  refine ⟨outcomes, final, isRun, noPending, fun batch isPrepared => ?_⟩
  have isJournal : batch.journal ∈ system.journals := List.mem_map_of_mem isPrepared
  have complete : final.Complete sha256 batch.journal := by
    refine (finalResumable.accounted _ isJournal).resolve_right ?_
    rintro ⟨dir, isPending, -⟩
    rw [noPending] at isPending
    cases isPending
  refine ⟨complete, fun path isEvent absent => ?_⟩
  obtain ⟨file, member, -, rfl⟩ := Journal.mem_eventPaths.mp isEvent
  obtain ⟨bytes, found, -⟩ := complete file member
  obtain ⟨position, enters⟩ := finalSafe.exists_enters absent (found ▸ rfl)
  exact ⟨position, enters, fun other entersToo => finalSafe.enters_unique entersToo enters⟩

/-- A first batch that dies before it creates its files, with its base recorded. -/
def sampleInterrupted : Store :=
  sampleStore.after (appendBatch sampleSha256 (sampleBatch ⟨2⟩ ⟨1⟩ "{}".toUTF8.toList)) (some 1)

/-- An interrupted batch is recovered. -/
theorem recovers_every_batch_sample :
    ∃ outcomes final,
      recoverPending sampleSha256 ⟨sampleInterrupted, none⟩ = (.ok outcomes, ⟨final, none⟩) ∧
        final.pending = .empty ∧
        ∀ batch ∈ [sampleBatch ⟨2⟩ ⟨1⟩ "{}".toUTF8.toList],
          final.Complete sampleSha256 batch.journal ∧
            ∀ path ∈ batch.journal.eventPaths, sampleStore.headFile path = none →
              ∃! position, final.Enters sampleStore path position := by
  have clean : sampleStore.Clean sampleSha256 := ⟨rfl, rfl, fun _ _ => rfl, nofun⟩
  have attempt : System.Attempt ⟨sampleStore, []⟩ ⟨sampleInterrupted, _⟩ :=
    .append (some 1) (Store.createPending_eq_ok.mpr ⟨by decide, rfl⟩)
      (fun _ _ _ => ⟨nofun, nofun⟩) (by decide)
  exact recovers_every_batch clean (.single attempt) (by decide +kernel)

/-- The object of a batch with a recorded base is committed by another batch,
whose id sorts first: recovery refuses the first batch, now and ever after. -/
theorem recovery_refuses_batch :
    let crashed := sampleInterrupted.after
      (appendBatch sampleSha256 (sampleBatch ⟨1⟩ ⟨2⟩ "[]".toUTF8.toList)) (some 0)
    let recovered := crashed.after (recoverPending sampleSha256) none
    crashed.pending.keys = {⟨1⟩, ⟨2⟩} ∧
      (∀ outcomes machine,
        recoverPending sampleSha256 ⟨crashed, none⟩ ≠ (.ok outcomes, machine)) ∧
      recovered.pending.keys = {⟨2⟩} ∧ recovered.headFile (.event ⟨1⟩) = none ∧
      ∀ outcomes machine,
        recoverPending sampleSha256 ⟨recovered, none⟩ ≠ (.ok outcomes, machine) := by
  intro crashed recovered
  have refused : (recoverPending sampleSha256 ⟨crashed, none⟩).1.toBool = false := by
    decide +kernel
  have refusedAgain : (recoverPending sampleSha256 ⟨recovered, none⟩).1.toBool = false := by
    decide +kernel
  refine ⟨by decide +kernel, fun outcomes machine isOk => ?_, by decide +kernel,
    by decide +kernel, fun outcomes machine isOk => ?_⟩
  · rw [isOk] at refused
    cases refused
  · rw [isOk] at refusedAgain
    cases refusedAgain

end SharedContext
