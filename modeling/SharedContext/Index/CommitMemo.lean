import SharedContext.Domain.Validation
import SharedContext.Library.CommitWalk
import Mathlib.Data.List.Destutter
import Mathlib.Data.String.Basic

/-!
# The memo of introducing commits

The index asks for the commits that introduced an Event path.  One walk over the
history answers it for every path at once; the answers are kept in the process
and in the projection database, and only a path never seen makes another walk.
-/

namespace SharedContext

/-- The history of the files under `events/`, with their blobs. -/
abbrev EventHistory := History String String String

/-- One observed addition of one append-only Event path. -/
structure EventAddition where
  commitOid : String
  commitTime : Int
  deriving DecidableEq, Repr

namespace EventAddition

/-- Oldest first, then by commit. -/
def comesBefore (left right : EventAddition) : Prop :=
  left.commitTime < right.commitTime ∨
    left.commitTime = right.commitTime ∧ left.commitOid ≤ right.commitOid

instance : DecidableRel comesBefore := by
  unfold DecidableRel comesBefore
  infer_instance

end EventAddition

abbrev EventAdditions := BTreeMap String (List EventAddition)

/-- Sort the additions of one path and drop repeated ones. -/
def sortAdditions (entries : List EventAddition) : List EventAddition :=
  (entries.insertionSort EventAddition.comesBefore).destutter (· ≠ ·)

/-- What `git log --diff-filter=A --name-only` lists from a head. -/
def listAdditions (history : EventHistory) (head : String) : List (String × EventAddition) :=
  (history.walk head).flatMap fun commit =>
    (BTreeMap.ordered (history.added commit)).map fun path => (path, ⟨commit.oid, commit.time⟩)

/-- Every addition of every append-only Event path, read in one `git log` pass. -/
def introducingCommits (history : EventHistory) (head : String) : EventAdditions :=
  (BTreeMap.group (listAdditions history head)).map sortAdditions

/-- Resolves the one commit that introduced an append-only Event path. -/
def introducingCommitOid (additions : EventAdditions) (path : String) : Result String :=
  match additions.get? path with
  | some [entry] => .ok entry.commitOid
  | none | some [] => .error ⟨.external, s!"Candidate event has no introducing commit: {path}"⟩
  | some _ => .error ⟨.external, s!"Candidate event has multiple introducing commits: {path}"⟩

/-- The publication time of an Event: the oldest of its additions. -/
def publicationTime (additions : EventAdditions) (path : String) : Option Int :=
  ((additions.get? path).bind (·.head?)).map (·.commitTime)

/-- The memo of one process. -/
structure EventCommitCache where
  warmed : Bool
  entries : EventAdditions

/-- The memo of the process and the table of the projection database, if there is
one. -/
structure MemoStore where
  cache : EventCommitCache
  database : Option EventAdditions

def EventCommitCache.cold : EventCommitCache :=
  ⟨false, .empty⟩

def MemoStore.empty : MemoStore :=
  ⟨.cold, none⟩

/-- Whether the database can be read and written; both may fail silently. -/
structure DatabaseAccess where
  readable : Bool
  writable : Bool

/-- Warm the memo from the database, once per process. -/
def warmCache (access : DatabaseAccess) (store : MemoStore) : EventCommitCache :=
  if store.cache.warmed then
    store.cache
  else
    match access.readable, store.database with
    | true, some persisted => ⟨true, store.cache.entries.extend persisted⟩
    | _, _ => ⟨true, store.cache.entries⟩

/-- Replaces the persisted memo with everything one history walk observed. -/
def persistEventCommits (access : DatabaseAccess) (database : Option EventAdditions)
    (additions : EventAdditions) : Option EventAdditions :=
  if access.writable then database.map fun _ => additions else database

def selectAdditions (entries : EventAdditions) (wanted : Finset String) : EventAdditions :=
  .ofKeys wanted entries.get?

/-- Answers the introducing commits of the wanted paths, spending at most one walk. -/
def eventAdditions (history : EventHistory) (head : String) (access : DatabaseAccess)
    (wanted : Finset String) (store : MemoStore) : MemoStore × EventAdditions :=
  if wanted = ∅ then
    (store, .empty)
  else
    let cache := warmCache access store
    if wanted ⊆ cache.entries.keys then
      (⟨cache, store.database⟩, selectAdditions cache.entries wanted)
    else
      let scanned := introducingCommits history head
      let entries := cache.entries.extend scanned
      (⟨⟨cache.warmed, entries⟩, persistEventCommits access store.database scanned⟩,
        selectAdditions entries wanted)

/-! ### Runs -/

/-- A synchronization, a new process, or a projection database that is created
anew or removed. -/
inductive MemoStep
  | synchronize (head : String) (access : DatabaseAccess) (wanted : Finset String)
  | restart
  | createDatabase
  | removeDatabase

def performMemoStep (history : EventHistory) (store : MemoStore) : MemoStep → MemoStore
  | .synchronize head access wanted => (eventAdditions history head access wanted store).1
  | .restart => { store with cache := .cold }
  | .createDatabase => { store with database := some .empty }
  | .removeDatabase => { store with database := none }

/-- The memos reached by any sequence of heads. -/
inductive MemoRun (history : EventHistory) : MemoStore → Prop
  | start : MemoRun history .empty
  | step {store : MemoStore} (run : MemoRun history store) (step : MemoStep) :
      MemoRun history (performMemoStep history store step)

/-! ### What one walk reports -/

/-- No Event path is added by two commits, unless only merges add it. -/
def AddsOnce (history : EventHistory) : Prop :=
  ∀ first ∈ history.commits, ∀ second ∈ history.commits, ∀ path,
    history.Adds first path → history.Adds second path → first.parents.length ≤ 1 →
      first = second

instance (history : EventHistory) : Decidable (AddsOnce history) :=
  decidable_of_iff
    (∀ first ∈ history.commits, ∀ second ∈ history.commits, ∀ path ∈ first.files.keys,
      history.Adds first path → history.Adds second path → first.parents.length ≤ 1 →
        first = second)
    ⟨fun once first firstMem second secondMem path adds =>
        once first firstMem second secondMem path adds.1 adds,
      fun once first firstMem second secondMem path _ => once first firstMem second secondMem path⟩

def HistoryCommit.addition (commit : HistoryCommit String String String) : EventAddition :=
  ⟨commit.oid, commit.time⟩

variable {history : EventHistory} {head path : String}

theorem mem_listed_additions {entry : EventAddition} :
    entry ∈ BTreeMap.listed (listAdditions history head) path ↔
      ∃ commit ∈ history.walk head, commit.parents.length ≤ 1 ∧ history.Adds commit path ∧
        commit.addition = entry := by
  simp only [BTreeMap.listed, listAdditions, List.mem_map, List.mem_filter, List.mem_flatMap,
    decide_eq_true_eq, Prod.exists, Prod.mk.injEq]
  constructor
  · rintro ⟨_, _, ⟨⟨commit, visited, added, addedMem, rfl, rfl⟩, rfl⟩, rfl⟩
    rw [BTreeMap.ordered_eq_sort, Finset.mem_sort, History.mem_added] at addedMem
    exact ⟨commit, visited, addedMem.1, addedMem.2, rfl⟩
  · rintro ⟨commit, visited, single, adds, rfl⟩
    refine ⟨path, commit.addition, ⟨⟨commit, visited, path, ?_, rfl, rfl⟩, rfl⟩, rfl⟩
    rw [BTreeMap.ordered_eq_sort, Finset.mem_sort, History.mem_added]
    exact ⟨single, adds⟩

theorem destutter'_of_all_eq {entries : List EventAddition} {entry : EventAddition}
    (allSame : ∀ other ∈ entries, other = entry) :
    entries.destutter' (· ≠ ·) entry = [entry] := by
  induction entries with
  | nil => rfl
  | cons first rest ih =>
      have firstEq := allSame first List.mem_cons_self
      rw [List.destutter'_cons_neg rest (R := (· ≠ ·)) (by simp [firstEq])]
      exact ih fun other otherMem => allSame other (List.mem_cons_of_mem _ otherMem)

theorem sortAdditions_of_all_eq {entries : List EventAddition} {entry : EventAddition}
    (notNil : entries ≠ []) (allSame : ∀ other ∈ entries, other = entry) :
    sortAdditions entries = [entry] := by
  have permuted := List.perm_insertionSort EventAddition.comesBefore entries
  unfold sortAdditions
  cases sorted : entries.insertionSort EventAddition.comesBefore with
  | nil =>
      rw [sorted] at permuted
      exact absurd permuted.symm.eq_nil notNil
  | cons first rest =>
      rw [sorted] at permuted
      have sortedSame : ∀ other ∈ first :: rest, other = entry :=
        fun other otherMem => allSame other (permuted.subset otherMem)
      rw [List.destutter_cons', sortedSame first List.mem_cons_self]
      exact destutter'_of_all_eq fun other otherMem =>
        sortedSame other (List.mem_cons_of_mem _ otherMem)

theorem introducingCommits_eq_some {entries : List EventAddition} :
    (introducingCommits history head).get? path = some entries ↔
      BTreeMap.listed (listAdditions history head) path ≠ [] ∧
        sortAdditions (BTreeMap.listed (listAdditions history head) path) = entries := by
  rw [introducingCommits, BTreeMap.get?_map, Option.map_eq_some_iff]
  constructor
  · rintro ⟨values, grouped, rfl⟩
    obtain ⟨notNil, rfl⟩ := BTreeMap.get?_group_eq_some.mp grouped
    exact ⟨notNil, rfl⟩
  · rintro ⟨notNil, rfl⟩
    exact ⟨_, BTreeMap.get?_group_eq_some.mpr ⟨notNil, rfl⟩, rfl⟩

/-- The entries name the one commit that adds the path, and it is no merge. -/
def IsIntroduction (history : EventHistory) (path : String) (entries : List EventAddition) :
    Prop :=
  ∃ commit ∈ history.commits, commit.parents.length ≤ 1 ∧ history.Adds commit path ∧
    entries = [commit.addition]

theorem introducingCommits_isIntroduction (once : AddsOnce history)
    {entries : List EventAddition}
    (reported : (introducingCommits history head).get? path = some entries) :
    IsIntroduction history path entries := by
  obtain ⟨notNil, rfl⟩ := introducingCommits_eq_some.mp reported
  obtain ⟨entry, entryMem⟩ := List.exists_mem_of_ne_nil _ notNil
  obtain ⟨commit, visited, single, adds, rfl⟩ := mem_listed_additions.mp entryMem
  have commitMem := History.mem_commits_of_mem_walk visited
  refine ⟨commit, commitMem, single, adds, sortAdditions_of_all_eq notNil ?_⟩
  intro other otherMem
  obtain ⟨another, anotherVisited, _, anotherAdds, rfl⟩ := mem_listed_additions.mp otherMem
  rw [once commit commitMem another (History.mem_commits_of_mem_walk anotherVisited) path adds
    anotherAdds single]

theorem introducingCommits_of_isIntroduction (once : AddsOnce history)
    (pathMem : path ∈ (history.filesAt head).keys) {entries : List EventAddition}
    (introduced : IsIntroduction history path entries) :
    (introducingCommits history head).get? path = some entries := by
  obtain ⟨commit, commitMem, single, adds, rfl⟩ := introduced
  obtain ⟨found, visited, foundAdds⟩ := History.exists_adds_of_walk pathMem
  have isCommit : commit = found := once commit commitMem found
    (History.mem_commits_of_mem_walk visited) path adds foundAdds single
  subst isCommit
  have entryMem := mem_listed_additions.mpr ⟨commit, visited, single, adds, rfl⟩
  refine introducingCommits_eq_some.mpr ⟨List.ne_nil_of_mem entryMem, ?_⟩
  apply sortAdditions_of_all_eq (List.ne_nil_of_mem entryMem)
  intro other otherMem
  obtain ⟨another, anotherVisited, _, anotherAdds, rfl⟩ := mem_listed_additions.mp otherMem
  rw [once commit commitMem another (History.mem_commits_of_mem_walk anotherVisited) path adds
    anotherAdds single]

/-! ### What the memo holds -/

/-- Everything a memo holds of a path is its introduction. -/
def MemoSound (history : EventHistory) (entries : EventAdditions) : Prop :=
  ∀ path additions, entries.get? path = some additions → IsIntroduction history path additions

theorem MemoSound.empty : MemoSound history .empty := by
  intro path additions found
  rw [BTreeMap.get?_empty] at found
  cases found

theorem MemoSound.extend {entries others : EventAdditions} (sound : MemoSound history entries)
    (othersSound : MemoSound history others) : MemoSound history (entries.extend others) := by
  intro path additions found
  rw [BTreeMap.get?_extend] at found
  cases isOther : others.get? path with
  | none =>
      rw [isOther] at found
      exact sound path additions found
  | some other =>
      rw [isOther] at found
      cases found
      exact othersSound path _ isOther

theorem introducingCommits_sound (once : AddsOnce history) (head : String) :
    MemoSound history (introducingCommits history head) :=
  fun _ _ reported => introducingCommits_isIntroduction once reported

/-- The memo of the process and the persisted one are both sound. -/
structure StoreSound (history : EventHistory) (store : MemoStore) : Prop where
  cache : MemoSound history store.cache.entries
  database : ∀ persisted, store.database = some persisted → MemoSound history persisted

theorem warmCache_sound {store : MemoStore} (sound : StoreSound history store)
    (access : DatabaseAccess) : MemoSound history (warmCache access store).entries := by
  unfold warmCache
  split
  · exact sound.cache
  · split
    case h_1 persisted _ isPersisted =>
      exact sound.cache.extend (sound.database persisted isPersisted)
    case h_2 => exact sound.cache

theorem eventAdditions_sound (once : AddsOnce history) {store : MemoStore}
    (sound : StoreSound history store) (head : String) (access : DatabaseAccess)
    (wanted : Finset String) :
    StoreSound history (eventAdditions history head access wanted store).1 := by
  unfold eventAdditions
  split
  · exact sound
  · dsimp only
    split
    · exact ⟨warmCache_sound sound access, sound.database⟩
    · refine ⟨(warmCache_sound sound access).extend (introducingCommits_sound once head), ?_⟩
      intro persisted isPersisted
      dsimp only [persistEventCommits] at isPersisted
      split at isPersisted
      · obtain ⟨_, _, rfl⟩ := Option.map_eq_some_iff.mp isPersisted
        exact introducingCommits_sound once head
      · exact sound.database persisted isPersisted

theorem MemoRun.sound {store : MemoStore} (once : AddsOnce history)
    (run : MemoRun history store) : StoreSound history store := by
  induction run with
  | start => exact ⟨MemoSound.empty, fun _ absent => nomatch absent⟩
  | step run step ih =>
      cases step with
      | synchronize head access wanted => exact eventAdditions_sound once ih head access wanted
      | restart => exact ⟨MemoSound.empty, ih.database⟩
      | createDatabase =>
          refine ⟨ih.cache, ?_⟩
          intro persisted isPersisted
          cases isPersisted
          exact MemoSound.empty
      | removeDatabase => exact ⟨ih.cache, fun _ absent => nomatch absent⟩

/-- A sound memo that knows the path answers as the walk does. -/
theorem MemoSound.get?_eq (once : AddsOnce history) {entries : EventAdditions}
    (sound : MemoSound history entries) (pathMem : path ∈ (history.filesAt head).keys)
    (known : path ∈ entries.keys) :
    entries.get? path = (introducingCommits history head).get? path := by
  obtain ⟨additions, found⟩ := BTreeMap.mem_keys_iff.mp known
  rw [found, introducingCommits_of_isIntroduction once pathMem (sound path additions found)]

/-- The memo agrees with a fresh walk about the path: the same additions, and so
the same introducing commit or error, and the same publication time. -/
structure MemoAgrees (history : EventHistory) (head : String) (answer : EventAdditions)
    (path : String) : Prop where
  additions : answer.get? path = (introducingCommits history head).get? path
  commit : introducingCommitOid answer path =
    introducingCommitOid (introducingCommits history head) path
  time : publicationTime answer path = publicationTime (introducingCommits history head) path

theorem MemoAgrees.of_additions {answer : EventAdditions}
    (same : answer.get? path = (introducingCommits history head).get? path) :
    MemoAgrees history head answer path :=
  ⟨same, by rw [introducingCommitOid, introducingCommitOid, same],
    by rw [publicationTime, publicationTime, same]⟩

section Sample

def sampleFiles (paths : List String) : BTreeMap String String :=
  .ofKeys paths.toFinset fun path => some ("blob of " ++ path)

/-- Two branches from one commit, and their merge. -/
def sampleCommits (left right : List String) : List (HistoryCommit String String String) :=
  [⟨"d4", 1300, ["b2", "c3"], sampleFiles ("events/base" :: left ++ right)⟩,
    ⟨"c3", 1200, ["a1"], sampleFiles ("events/base" :: right)⟩,
    ⟨"b2", 1100, ["a1"], sampleFiles ("events/base" :: left)⟩,
    ⟨"a1", 1000, [], sampleFiles ["events/base"]⟩]

def sampleHistory (left right : List String) : EventHistory where
  commits := sampleCommits left right
  newest := by
    refine ⟨?_, ?_, ?_, ?_, ?_, ?_, ?_, ?_, trivial⟩
    all_goals simp

def openAccess : DatabaseAccess :=
  ⟨true, true⟩

def branchesStore (history : EventHistory) (left right : List String) : MemoStore :=
  performMemoStep history
    (performMemoStep history .empty
      (.synchronize "b2" openAccess ("events/base" :: left).toFinset))
    (.synchronize "c3" openAccess ("events/base" :: right).toFinset)

theorem branchesStore_run (history : EventHistory) (left right : List String) :
    MemoRun history (branchesStore history left right) :=
  .step (.step .start _) _

private abbrev disjointHistory : EventHistory :=
  sampleHistory ["events/left"] ["events/right"]

/-- Both branches add one path, beside paths of their own. -/
private abbrev branchedHistory : EventHistory :=
  sampleHistory ["events/shared", "events/left"] ["events/shared", "events/right"]

private abbrev sharedStore : MemoStore :=
  branchesStore branchedHistory ["events/shared", "events/left"] ["events/shared", "events/right"]

/-- The second branch is the first one with its commit rewritten. -/
private abbrev rewrittenHistory : EventHistory :=
  sampleHistory ["events/shared"] ["events/shared"]

private abbrev rewrittenStore : MemoStore :=
  performMemoStep rewrittenHistory .empty
    (.synchronize "b2" openAccess {"events/base", "events/shared"})

end Sample

end SharedContext
