import SharedContext.GitStore.AppendOnly
import Mathlib.Logic.Relation

/-!
# Interleaved writers

Any number of processes journal batches, append them, recover what is pending
and commit single journals.  The writer lock makes each locked section one
step, and a section may die at any seam.  Over every interleaving the history
is append-only, atomic for each batch, and writes each event once.
-/

namespace SharedContext

open Relation (ReflTransGen)

def Journal.eventPaths (journal : Journal) : Finset RepositoryPath :=
  ((journal.files.filter fun file => file.kind = .event).map PendingFile.targetPath).toFinset

theorem Journal.mem_eventPaths {journal : Journal} {path : RepositoryPath} :
    path ∈ journal.eventPaths ↔
      ∃ file ∈ journal.files, file.kind = .event ∧ file.targetPath = path := by
  simp [eventPaths, and_assoc]

theorem Journal.Valid.mem_eventPaths_of_target {journal other : Journal} (valid : journal.Valid)
    (otherValid : other.Valid) {path : RepositoryPath} (isTarget : path ∈ journal.targetPaths)
    (isEvent : path ∈ other.eventPaths) : path ∈ journal.eventPaths := by
  obtain ⟨file, member, rfl⟩ := List.mem_map.mp isTarget
  obtain ⟨otherFile, otherMember, otherKind, sameTarget⟩ := Journal.mem_eventPaths.mp isEvent
  obtain ⟨eventId, target⟩ := targetPath_of_event (otherValid.kinds _ otherMember) otherKind
  refine Journal.mem_eventPaths.mpr ⟨file, member, ?_, rfl⟩
  cases kind : file.kind with
  | event => rfl
  | object =>
      have isObject := targetPath_of_object (valid.kinds file member) kind
      rw [← sameTarget, target] at isObject
      cases isObject

variable (sha256 : Bytes → Digest)

/-- The store, and every batch journaled so far. -/
structure System where
  store : Store
  prepared : List (PreparedBatch sha256)

/-- Where a program leaves the store when it passes at most the budgeted seams. -/
def Store.after {α : Type} (store : Store) (program : Writer α) (budget : Option Nat) : Store :=
  (program ⟨store, budget⟩).2.state

variable {sha256}

/-- The events of a batch are generated with it, or those of a batch that is
journaled once more. -/
def GeneratedEvents (prepared : List (PreparedBatch sha256)) (batch : PreparedBatch sha256) :
    Prop :=
  ∀ earlier ∈ prepared,
    Disjoint earlier.journal.eventPaths batch.journal.eventPaths ∨
      earlier.journal.eventPaths = batch.journal.eventPaths

namespace System

/-- One operation of one process, as far as it got. -/
inductive Step : System sha256 → System sha256 → Prop
  /-- A batch is journaled outside the lock. -/
  | prepare {system : System sha256} {batch : PreparedBatch sha256} {next : Store}
      (generated : GeneratedEvents system.prepared batch)
      (created : system.store.createPending sha256 batch = .ok next) :
      Step system ⟨next, batch :: system.prepared⟩
  /-- The locked section of `append_event` and of a batch submission. -/
  | append {system : System sha256} {batch : PreparedBatch sha256} (budget : Option Nat)
      (isPrepared : batch ∈ system.prepared) :
      Step system ⟨system.store.after (appendLocked sha256 batch.journal) budget, system.prepared⟩
  | recover {system : System sha256} (budget : Option Nat) :
      Step system ⟨system.store.after (recoverPending sha256) budget, system.prepared⟩
  /-- `commit_pending` reads the journal at some time before it takes the lock. -/
  | commit {system : System sha256} {batch : PreparedBatch sha256} {journal : Journal}
      (budget : Option Nat) (isPrepared : batch ∈ system.prepared)
      (isCopy : journal.IsCopyOf batch.journal) :
      Step system
        ⟨system.store.after (commitJournalLocked sha256 journal true) budget, system.prepared⟩

def Run : System sha256 → System sha256 → Prop :=
  ReflTransGen Step

def journals (system : System sha256) : List Journal :=
  system.prepared.map PreparedBatch.journal

/-- Everything pending was journaled by one of the processes. -/
def Accounted (system : System sha256) : Prop :=
  ∀ id dir, system.store.pending.get? id = some dir →
    ∃ original ∈ system.journals, dir.journal.IsCopyOf original

end System

theorem Store.Safe.mono {journals more : List Journal} {origin store : Store}
    (safe : store.Safe sha256 journals origin) (subset : journals ⊆ more) :
    store.Safe sha256 more origin := by
  obtain ⟨later, commits, chain⟩ := safe.grows
  refine ⟨⟨later, commits, chain.imp ?_⟩, fun id dir found => ?_⟩
  · rintro before after ⟨journal, isJournal, appends⟩
    exact ⟨journal, subset isJournal, appends⟩
  · obtain ⟨original, isJournal, isCopy⟩ := safe.pending id dir found
    exact ⟨original, subset isJournal, isCopy⟩

theorem Guarded.after {α : Type} {journals : List Journal} {origin store : Store}
    {program : Writer α}
    (guarded : Guarded sha256 journals origin (fun _ => True) program fun _ _ => True)
    (safe : store.Safe sha256 journals origin) (budget : Option Nat) :
    (store.after program budget).Safe sha256 journals origin :=
  guarded.final ⟨store, budget⟩ safe trivial

namespace System

theorem Step.safe {system next : System sha256} {origin : Store} (step : Step system next)
    (safe : system.store.Safe sha256 system.journals origin) :
    next.store.Safe sha256 next.journals origin := by
  cases step with
  | @prepare batch store generated created =>
      obtain ⟨-, rfl⟩ := Store.createPending_eq_ok.mp created
      refine (safe.mono (List.subset_cons_self _ _)).insert_pending ?_
      exact ⟨batch.journal, List.mem_cons_self, .refl _⟩
  | append budget isPrepared =>
      have isJournal := List.mem_map_of_mem (f := PreparedBatch.journal) isPrepared
      exact (guarded_appendLocked isJournal (.refl _)).after safe budget
  | recover budget => exact guarded_recoverAllLocked.after safe budget
  | commit budget isPrepared isCopy =>
      have isJournal := List.mem_map_of_mem (f := PreparedBatch.journal) isPrepared
      exact (guarded_commitJournalLocked isJournal isCopy).after safe budget

theorem Run.safe {first last : System sha256} (run : Run first last)
    (accounted : first.Accounted) : last.store.Safe sha256 last.journals first.store := by
  induction run with
  | refl => exact ⟨⟨[], (List.append_nil _).symm, .singleton _⟩, accounted⟩
  | tail _ step ih => exact step.safe ih

/-- Batches share all of their events or none. -/
def Separated (system : System sha256) : Prop :=
  ∀ batch ∈ system.prepared, ∀ other ∈ system.prepared,
    Disjoint batch.journal.eventPaths other.journal.eventPaths ∨
      batch.journal.eventPaths = other.journal.eventPaths

theorem Step.separated {system next : System sha256} (step : Step system next)
    (separated : system.Separated) : next.Separated := by
  cases step with
  | prepare generated created =>
      intro batch isPrepared other isOther
      rcases List.mem_cons.mp isPrepared with rfl | isEarlier
      · rcases List.mem_cons.mp isOther with rfl | isEarlier
        · exact .inr rfl
        · exact (generated other isEarlier).imp (fun disjoint => disjoint.symm) Eq.symm
      · rcases List.mem_cons.mp isOther with rfl | isAlsoEarlier
        · exact generated batch isEarlier
        · exact separated batch isEarlier other isAlsoEarlier
  | append => exact separated
  | recover => exact separated
  | commit => exact separated

theorem Run.separated {first last : System sha256} (run : Run first last)
    (separated : first.Separated) : last.Separated := by
  induction run with
  | refl => exact separated
  | tail _ step ih => exact step.separated ih

end System

/-! ### What a safe history says about its files -/

/-- The first commit with a path is the one after this position. -/
structure Store.Enters (store origin : Store) (path : RepositoryPath) (position : Nat) : Prop where
  since : origin.headOid ≤ position
  absent : store.fileAt position path = none
  present : (store.fileAt (position + 1) path).isSome

theorem Store.fileAt_head (store : Store) (path : RepositoryPath) :
    store.fileAt store.headOid path = store.headFile path := by
  rw [fileAt, commits, headOid, List.getElem?_concat_length]
  rfl

theorem Store.Enters.inRange {store origin : Store} {path : RepositoryPath} {position : Nat}
    (enters : store.Enters origin path position) : position + 1 ≤ store.headOid := by
  obtain ⟨bytes, found⟩ := Option.isSome_iff_exists.mp enters.present
  obtain ⟨commit, isCommit, -⟩ := Option.bind_eq_some_iff.mp found
  have inRange := (List.getElem?_eq_some_iff.mp isCommit).1
  rw [Store.commits, List.length_append, List.length_singleton] at inRange
  exact Nat.le_of_lt_succ inRange

namespace Store.Safe

variable {journals : List Journal} {origin store : Store}
  (safe : store.Safe sha256 journals origin)
include safe

theorem headOid_le : origin.headOid ≤ store.headOid := by
  obtain ⟨later, commits, -⟩ := safe.grows
  have lengths := congrArg List.length commits
  simp only [Store.commits, List.length_append, List.length_singleton] at lengths
  change origin.history.length ≤ store.history.length
  omega

theorem appends {position : Nat} {before after : Commit} (since : origin.headOid ≤ position)
    (isBefore : store.commits[position]? = some before)
    (isAfter : store.commits[position + 1]? = some after) :
    ∃ journal ∈ journals, before.Appends sha256 after journal := by
  obtain ⟨later, commits, chain⟩ := safe.grows
  have shifted : store.commits = origin.history ++ (origin.head :: later) := by
    rw [commits, Store.commits, List.append_assoc, List.singleton_append]
  rw [shifted, List.getElem?_append_right since] at isBefore
  rw [shifted, List.getElem?_append_right (Nat.le_succ_of_le since)] at isAfter
  have isNext : position + 1 - origin.history.length = position - origin.history.length + 1 :=
    Nat.sub_add_comm since
  rw [isNext] at isAfter
  obtain ⟨-, rfl⟩ := List.getElem?_eq_some_iff.mp isBefore
  obtain ⟨inRange, rfl⟩ := List.getElem?_eq_some_iff.mp isAfter
  exact chain.getElem _ inRange

theorem fileAt_succ {position : Nat} (since : origin.headOid ≤ position)
    (inRange : position + 1 ≤ store.headOid) {path : RepositoryPath} {bytes : Bytes}
    (found : store.fileAt position path = some bytes) :
    store.fileAt (position + 1) path = some bytes := by
  obtain ⟨before, isBefore, found⟩ := Option.bind_eq_some_iff.mp found
  have isNext : position + 1 < store.commits.length := by
    rw [Store.commits, List.length_append, List.length_singleton, ← Store.headOid]
    omega
  have isAfter := List.getElem?_eq_getElem isNext
  obtain ⟨journal, -, appends⟩ := safe.appends since isBefore isAfter
  exact Option.bind_eq_some_iff.mpr ⟨_, isAfter, appends.kept path bytes found⟩

theorem fileAt_le {first last : Nat} (since : origin.headOid ≤ first) (before : first ≤ last)
    (inRange : last ≤ store.headOid) {path : RepositoryPath} {bytes : Bytes}
    (found : store.fileAt first path = some bytes) : store.fileAt last path = some bytes := by
  induction last, before using Nat.le_induction with
  | base => exact found
  | succ position reached ih =>
      exact safe.fileAt_succ (since.trans reached) inRange (ih (Nat.le_of_succ_le inRange))

theorem fileAt_origin (path : RepositoryPath) :
    store.fileAt origin.headOid path = origin.headFile path := by
  obtain ⟨later, commits, -⟩ := safe.grows
  have inRange : origin.history.length < origin.commits.length := by
    rw [Store.commits, List.length_append, List.length_singleton]
    omega
  rw [Store.fileAt, commits, Store.headOid, List.getElem?_append_left inRange, Store.commits,
    List.getElem?_concat_length]
  rfl

theorem headFile_kept {path : RepositoryPath} {bytes : Bytes}
    (found : origin.headFile path = some bytes) : store.headFile path = some bytes := by
  rw [← safe.fileAt_origin] at found
  rw [← store.fileAt_head]
  exact safe.fileAt_le le_rfl safe.headOid_le le_rfl found

theorem exists_enters {path : RepositoryPath} (absent : origin.headFile path = none)
    (present : (store.headFile path).isSome) : ∃ position, store.Enters origin path position := by
  rw [← safe.fileAt_origin] at absent
  rw [← store.fileAt_head] at present
  by_contra never
  have stillAbsent : ∀ position, origin.headOid ≤ position →
      store.fileAt position path = none := by
    intro position since
    induction position, since using Nat.le_induction with
    | base => exact absent
    | succ position since ih =>
        by_contra isPresent
        exact never ⟨position, since, ih, Option.isSome_iff_ne_none.mpr isPresent⟩
  rw [stillAbsent _ safe.headOid_le] at present
  cases present

theorem enters_unique {path : RepositoryPath} {position other : Nat}
    (enters : store.Enters origin path position) (entersToo : store.Enters origin path other) :
    position = other := by
  have notBefore : ∀ {first second}, store.Enters origin path first →
      store.Enters origin path second → ¬ first < second := by
    intro first second entersFirst entersSecond before
    obtain ⟨bytes, found⟩ := Option.isSome_iff_exists.mp entersFirst.present
    have kept := safe.fileAt_le (Nat.le_succ_of_le entersFirst.since) before
      (Nat.le_of_succ_le entersSecond.inRange) found
    rw [entersSecond.absent] at kept
    cases kept
  rcases Nat.lt_trichotomy position other with before | same | after
  · exact absurd before (notBefore enters entersToo)
  · exact same
  · exact absurd after (notBefore entersToo enters)

theorem enters_appends {path : RepositoryPath} {position : Nat}
    (enters : store.Enters origin path position) :
    ∃ before after, store.commits[position]? = some before ∧
      store.commits[position + 1]? = some after ∧
      ∃ journal ∈ journals, before.Appends sha256 after journal ∧ path ∈ journal.targetPaths := by
  obtain ⟨bytes, found⟩ := Option.isSome_iff_exists.mp enters.present
  obtain ⟨after, isAfter, found⟩ := Option.bind_eq_some_iff.mp found
  have inRange := Nat.lt_of_succ_lt (List.getElem?_eq_some_iff.mp isAfter).1
  have isBefore := List.getElem?_eq_getElem inRange
  obtain ⟨journal, isJournal, appends⟩ := safe.appends enters.since isBefore isAfter
  refine ⟨_, after, isBefore, isAfter, journal, isJournal, appends, ?_⟩
  have absent := enters.absent
  rw [Store.fileAt, isBefore, Option.bind_some, ← BTreeMap.not_mem_keys_iff] at absent
  exact (appends.added path (BTreeMap.mem_keys_of_get? found)).resolve_left absent

end Store.Safe

/-! ### Append-only, atomic and exactly once -/

/-- Over every interleaving of the writers' operations, interrupted anywhere:
what is committed stays as it is; an event enters `HEAD` in exactly one commit,
which is named after a batch that declares its digest; and the events of one
batch enter in the same commit. -/
theorem interleaved_appends_once {start : Store} (noPending : start.pending = .empty)
    {middle last : System sha256} (began : System.Run ⟨start, []⟩ middle)
    (continued : System.Run middle last) :
    (∀ path bytes, middle.store.headFile path = some bytes →
      last.store.headFile path = some bytes) ∧
    (∀ eventId, start.headFile (.event eventId) = none →
      (last.store.headFile (.event eventId)).isSome →
      ∃! position, last.store.Enters start (.event eventId) position ∧
        ∃ batch ∈ last.prepared, ∃ file ∈ batch.journal.files,
          file.targetPath = .event eventId ∧
          (last.store.headFile (.event eventId)).map sha256 = some file.sha256 ∧
          last.store.commits[position + 1]?.bind Commit.batchId = some batch.journal.batchId) ∧
    ∀ batch ∈ last.prepared, ∀ position,
      ∀ path ∈ batch.journal.eventPaths, ∀ other ∈ batch.journal.eventPaths,
        last.store.Enters start path position → last.store.Enters start other position := by
  have startAccounted : System.Accounted (⟨start, []⟩ : System sha256) := by
    intro id dir found
    rw [noPending] at found
    cases found
  have middleSafe := began.safe startAccounted
  have run : System.Run ⟨start, []⟩ last := ReflTransGen.trans began continued
  have lastSafe := run.safe startAccounted
  have separated : last.Separated := run.separated nofun
  refine ⟨fun path bytes found => ?_, fun eventId absent present => ?_, ?_⟩
  · exact (continued.safe middleSafe.pending).headFile_kept found
  · obtain ⟨position, enters⟩ := lastSafe.exists_enters absent present
    refine ⟨position, ⟨enters, ?_⟩, fun other entersToo =>
      lastSafe.enters_unique entersToo.1 enters⟩
    obtain ⟨before, after, isBefore, isAfter, journal, isJournal, appends, isTarget⟩ :=
      lastSafe.enters_appends enters
    obtain ⟨batch, isPrepared, rfl⟩ := List.mem_map.mp isJournal
    obtain ⟨file, isFile, target⟩ := List.mem_map.mp isTarget
    obtain ⟨bytes, found, declared⟩ := appends.declared file isFile
    refine ⟨batch, isPrepared, file, isFile, target, ?_, ?_⟩
    · have atPosition : last.store.fileAt (position + 1) (.event eventId) = some bytes := by
        rw [Store.fileAt, isAfter, ← target]
        exact found
      rw [← Store.fileAt_head, lastSafe.fileAt_le (Nat.le_succ_of_le enters.since) enters.inRange
        le_rfl atPosition, Option.map_some, declared]
    · rw [isAfter]
      exact appends.named
  · intro batch isPrepared position path isEvent other isOther enters
    obtain ⟨before, after, isBefore, isAfter, journal, isJournal, appends, isTarget⟩ :=
      lastSafe.enters_appends enters
    obtain ⟨appended, isAppended, rfl⟩ := List.mem_map.mp isJournal
    -- The appended batch has this event, so it has all events of the batch.
    have isShared : path ∈ appended.journal.eventPaths :=
      appended.valid.mem_eventPaths_of_target batch.valid isTarget isEvent
    have sameEvents : batch.journal.eventPaths = appended.journal.eventPaths :=
      (separated batch isPrepared appended isAppended).resolve_left fun disjoint =>
        Finset.disjoint_left.mp disjoint isEvent isShared
    rw [sameEvents] at isOther
    obtain ⟨file, isFile, kind, rfl⟩ := Journal.mem_eventPaths.mp isOther
    obtain ⟨bytes, found, -⟩ := appends.declared file isFile
    refine ⟨enters.since, ?_, ?_⟩
    · rw [Store.fileAt, isBefore, Option.bind_some, ← BTreeMap.not_mem_keys_iff]
      exact appends.events file isFile kind
    · rw [Store.fileAt, isAfter, Option.bind_some, found]
      rfl

/-- The sample store once a batch is journaled. -/
def sampleJournaled (batch : PreparedBatch sampleSha256) : Store :=
  { sampleStore with
    pending := sampleStore.pending.insert batch.journal.batchId ⟨batch.journal, batch.payloads⟩ }

/-- A journaled batch is recovered, and its event enters once. -/
theorem interleaved_appends_once_sample :
    let batch := sampleBatch ⟨1⟩ ⟨1⟩ "{}".toUTF8.toList
    let recovered := (sampleJournaled batch).after (recoverPending sampleSha256) none
    ∃! position, recovered.Enters sampleStore (.event ⟨1⟩) position ∧
      ∃ appended ∈ [batch], ∃ file ∈ appended.journal.files, file.targetPath = .event ⟨1⟩ ∧
        (recovered.headFile (.event ⟨1⟩)).map sampleSha256 = some file.sha256 ∧
        recovered.commits[position + 1]?.bind Commit.batchId = some appended.journal.batchId := by
  intro batch recovered
  have journaled : System.Step ⟨sampleStore, []⟩ ⟨sampleJournaled batch, [batch]⟩ :=
    .prepare nofun (Store.createPending_eq_ok.mpr ⟨by decide, rfl⟩)
  have present : (recovered.headFile (.event ⟨1⟩)).isSome = true := by decide +kernel
  exact (interleaved_appends_once rfl (.single journaled) (.single (.recover none))).2.1 ⟨1⟩ rfl
    present

end SharedContext
