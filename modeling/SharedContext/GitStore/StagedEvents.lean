import Mathlib.Data.String.Basic
import SharedContext.GitStore.Git
import SharedContext.Library.Destutter
import SharedContext.Reducer.Merging
import SharedContext.Reducer.Partition

/-!
# Commits by hand

A change that is staged by hand is checked before its commit: it only adds
managed files, and none of the events it adds is quarantined.  Afterwards the
committed events can be checked as a whole.
-/

namespace SharedContext.StagedEvents

open BTreeMap (ordered)

/-- The files of a commit or of the index by the text of their path. -/
abbrev FileTree := BTreeMap String Bytes

inductive ParsedEvent
  | known (event : ReducerEvent)
  | unknownSchema

/-- What the checks take from other crates: the JSON form of events, the hint in a
malformed Candidate event, digests, tree objects, and the text of the first
diagnostic of an event. -/
structure StoreFormat where
  parseEvent : Bytes → Except String ParsedEvent
  candidateSubmissionHint : Bytes → Option SubmissionId
  sha256 : Bytes → String
  treeOid : FileTree → String
  diagnosticText : DomainProjection → EventId → Option String

def managedRoots : List String :=
  ["events", "objects", "schemas"]

/-- `path.starts_with("{root}/")`. -/
def isBelow (root path : String) : Bool :=
  (root ++ "/").toList.isPrefixOf path.toList

def isUnder (root path : String) : Bool :=
  path == root || isBelow root path

/-- One record of `git diff --name-status --no-renames`. -/
structure NameStatus where
  status : ChangeStatus
  path : String

def ChangeStatus.letter : ChangeStatus → String
  | .added => "A"
  | .modified => "M"
  | .deleted => "D"

def nameStatus (before after : FileTree) (path : String) : Option NameStatus :=
  match before.get? path, after.get? path with
  | none, none => none
  | none, some _ => some ⟨.added, path⟩
  | some _, none => some ⟨.deleted, path⟩
  | some old, some new => if old = new then none else some ⟨.modified, path⟩

def changesBetween (before after : FileTree) : List NameStatus :=
  (ordered (before.keys ∪ after.keys)).filterMap (nameStatus before after)

/-- `git ls-tree -r HEAD -- root`. -/
def headPaths (head : FileTree) (root : String) : List String :=
  (ordered head.keys).filter (isUnder root)

def requireAdditions (statusMessage pathMessage : String → String) (changes : List NameStatus) :
    Result (List String) := do
  changes.forM fun change => do
    Result.require (change.status = .added)
      (invariantError (statusMessage (ChangeStatus.letter change.status)))
    Result.require (managedRoots.any fun root => isUnder root change.path)
      (invariantError (pathMessage change.path))
  pure (changes.map NameStatus.path)

/-- Verifies that every committed change since a revision adds a managed file. -/
def validateAppendOnlySince (base head : FileTree) : Result Nat := do
  let paths ← requireAdditions
    (fun status => s!"committed change {status} is not append-only")
    (fun path => s!"committed foreign path is not part of the Shared Context store: {path}")
    (changesBetween base head)
  pure paths.length

/-! ### Staged events -/

section Checks

variable (format : StoreFormat) (hasher : ContentHasher)

def isCandidateCreated : EventPayload → Bool
  | .contextCandidateCreated _ => true
  | _ => false

def requiresCandidateConfirmationService : EventPayload → Bool
  | .candidateConfirmed _ => true
  | .contextSpaceAssociationChanged association =>
      match association.origin with
      | .candidateConfirmation _ => true
      | .correction => false
  | _ => false

structure CollectedEvents where
  reducerEvents : List ReducerEvent
  stagedEventIds : Finset EventId

def collectStagedEvent (collected : CollectedEvents) (path : String) (bytes : Bytes)
    (added : Bool) : Result CollectedEvents :=
  match format.parseEvent bytes with
  | .ok (.known event) => do
      Result.require ((added && isCandidateCreated event.payload) = false)
        (invariantError
          s!"staged Candidate event at {path} requires the Candidate submission service")
      Result.require ((added && requiresCandidateConfirmationService event.payload) = false)
        (invariantError
          s!"staged Candidate confirmation fact at {path} requires the atomic confirmation service")
      pure
        { reducerEvents := collected.reducerEvents ++ [event]
          stagedEventIds :=
            if added then insert event.eventId collected.stagedEventIds
            else collected.stagedEventIds }
  | .ok .unknownSchema => pure collected
  | .error error =>
      if added then
        match format.candidateSubmissionHint bytes with
        | some submissionId => throw (invariantError
            s!"staged malformed Candidate event at {path} for {submissionId} requires the Candidate submission service")
        | none => throw (invariantError s!"staged event is invalid at {path}: {error}")
      else pure collected

/-- Reads one event file: what is added from the index, the rest from `HEAD`. -/
def collectPath (head index : FileTree) (added : List String) (collected : CollectedEvents)
    (path : String) : Result CollectedEvents :=
  let isAdded := decide (path ∈ added)
  match (if isAdded then index else head).get? path with
  | none => throw (invariantError s!"event disappeared while validating: {path}")
  | some bytes => collectStagedEvent format collected path bytes isAdded

def requireObject (index : FileTree) (path : String) : Result Unit :=
  match index.get? path with
  | none => throw (invariantError s!"object disappeared while validating: {path}")
  | some bytes =>
      let digest := String.ofList ((path.toList.splitOn '/').getLastD [])
      let shard := String.ofList (digest.toList.take 2)
      Result.require (digest.utf8ByteSize = 64 ∧ format.sha256 bytes = digest ∧
          s!"objects/sha256/{shard}/{digest}" = path)
        (invariantError s!"staged object path or digest does not match content: {path}")

structure StagedValidation where
  treeOid : String
  addedPaths : List String
  eventCount : Nat

/-- The event paths of the staged tree, sorted and without repetitions. -/
def stagedEventPaths (head : FileTree) (added : List String) : List String :=
  ((headPaths head "events" ++ added.filter (isBelow "events")).insertionSort
    fun first second => first ≤ second).destutter (· ≠ ·)

/-- Validates staged changes as additions and reduces the exact staged event set. -/
def validateStaged (head index : FileTree) : Result StagedValidation := do
  let staged ← requireAdditions
    (fun status => s!"staged change {status} is not append-only; revise or withdraw by adding a new event")
    (fun path => s!"foreign staged path is not part of the Shared Context store: {path}")
    (changesBetween head index)
  let added := staged.insertionSort fun first second => first ≤ second
  let collected ← (stagedEventPaths head added).foldlM (collectPath format head index added) ⟨[], ∅⟩
  (added.filter (isBelow "objects")).forM (requireObject format index)
  let projection := reduce collected.reducerEvents hasher
  match first? (projection.quarantinedEventIds ∩ collected.stagedEventIds) with
  | none => pure ⟨format.treeOid index, added, collected.reducerEvents.length⟩
  | some eventId =>
      match format.diagnosticText projection eventId with
      | none => throw (invariantError "staged event was quarantined without a diagnostic")
      | some text => throw (invariantError s!"staged event set is invalid {text}")

/-! ### Committed events -/

/-- Reads a committed event from its canonical path. -/
def collectCommittedEvent (head : FileTree) (events : List ReducerEvent) (path : String) :
    Result (List ReducerEvent) :=
  match head.get? path with
  | none => throw (invariantError s!"event disappeared while validating: {path}")
  | some bytes =>
      match format.parseEvent bytes with
      | .ok (.known event) => do
          Result.require (RepositoryPath.eventText event.eventId = path)
            (invariantError s!"committed Event path is not canonical: {path}")
          pure (events ++ [event])
      | .ok .unknownSchema => pure events
      | .error error => throw (invariantError s!"committed Event is invalid at {path}: {error}")

def validateCommittedEvents (head : FileTree) : Result Nat := do
  let events ← (headPaths head "events").foldlM (collectCommittedEvent format head) []
  match first? (reduce events hasher).quarantinedEventIds with
  | none => pure (headPaths head "events").length
  | some eventId => throw (invariantError s!"committed Event set is quarantined at {eventId}")

end Checks

/-! ### What the checks establish -/

variable {format : StoreFormat} {hasher : ContentHasher}

theorem isOk_iff {α : Type} {result : Result α} :
    result.isOk = true ↔ ∃ value, result = .ok value := by
  cases result <;> simp [Result.isOk]

def knownEvent : Except String ParsedEvent → Option ReducerEvent
  | .ok (.known event) => some event
  | _ => none

def eventAt (format : StoreFormat) (tree : FileTree) (path : String) : Option ReducerEvent :=
  (tree.get? path).bind fun bytes => knownEvent (format.parseEvent bytes)

def treeEvents (format : StoreFormat) (tree : FileTree) : List ReducerEvent :=
  (headPaths tree "events").filterMap (eventAt format tree)

/-- The file can be read as an event, maybe of another schema. -/
def Reads (format : StoreFormat) (tree : FileTree) (path : String) : Prop :=
  ∃ bytes parsed, tree.get? path = some bytes ∧ format.parseEvent bytes = .ok parsed

theorem mem_ordered {set : Finset String} {path : String} : path ∈ ordered set ↔ path ∈ set := by
  rw [BTreeMap.ordered_eq_sort, Finset.mem_sort]

theorem nodup_headPaths (tree : FileTree) (root : String) : (headPaths tree root).Nodup := by
  rw [headPaths, BTreeMap.ordered_eq_sort]
  exact (Finset.sort_nodup _ _).filter _

theorem mem_headPaths {tree : FileTree} {root path : String} :
    path ∈ headPaths tree root ↔ path ∈ tree.keys ∧ isUnder root path = true := by
  rw [headPaths, List.mem_filter, mem_ordered]

theorem first?_eq_none {α : Type} [LinearOrder α] {set : Finset α} :
    first? set = none ↔ set = ∅ :=
  Finset.min_eq_top

theorem nameStatus_eq_some {before after : FileTree}
    (stays : ∀ path bytes, before.get? path = some bytes → after.get? path = some bytes)
    {path : String} {change : NameStatus} :
    nameStatus before after path = some change ↔
      change = ⟨.added, path⟩ ∧ path ∈ after.keys ∧ path ∉ before.keys := by
  rw [BTreeMap.mem_keys_iff, BTreeMap.not_mem_keys_iff, nameStatus]
  cases old : before.get? path with
  | none => cases after.get? path <;> simp [eq_comm]
  | some bytes => simp [stays path bytes old]

theorem requireAdditions_eq_ok {statusMessage pathMessage : String → String}
    {before after : FileTree} {paths : List String} :
    requireAdditions statusMessage pathMessage (changesBetween before after) = .ok paths ↔
      (∀ path bytes, before.get? path = some bytes → after.get? path = some bytes) ∧
      (∀ path ∈ after.keys, path ∉ before.keys →
        (managedRoots.any fun root => isUnder root path) = true) ∧
      (changesBetween before after).map NameStatus.path = paths := by
  simp only [requireAdditions, Result.seq_eq_ok, Result.forM_eq_ok, Result.require_eq_ok,
    Result.pure_eq_ok]
  rw [← and_assoc]
  apply and_congr_left
  intro _
  have listed {path : String} {change : NameStatus}
      (found : nameStatus before after path = some change) :
      change ∈ changesBetween before after := by
    refine List.mem_filterMap.mpr ⟨path, mem_ordered.mpr ?_, found⟩
    rw [Finset.mem_union, BTreeMap.mem_keys_iff, BTreeMap.mem_keys_iff]
    unfold nameStatus at found
    split at found <;> simp_all
  constructor
  · intro additions
    refine ⟨fun path bytes old => ?_, fun path isNew notOld => ?_⟩
    · by_contra changed
      cases new : after.get? path with
      | none =>
          have found : nameStatus before after path = some ⟨.deleted, path⟩ := by
            simp [nameStatus, old, new]
          cases (additions _ (listed found)).1
      | some other =>
          have differs : bytes ≠ other := fun same => changed (same ▸ new)
          have found : nameStatus before after path = some ⟨.modified, path⟩ := by
            simp [nameStatus, old, new, differs]
          cases (additions _ (listed found)).1
    · obtain ⟨bytes, new⟩ := BTreeMap.mem_keys_iff.mp isNew
      have old := BTreeMap.not_mem_keys_iff.mp notOld
      have found : nameStatus before after path = some ⟨.added, path⟩ := by
        simp [nameStatus, old, new]
      exact (additions _ (listed found)).2
  · rintro ⟨stays, managed⟩ change member
    obtain ⟨path, -, found⟩ := List.mem_filterMap.mp member
    obtain ⟨rfl, isNew, notOld⟩ := (nameStatus_eq_some stays).mp found
    exact ⟨rfl, managed path isNew notOld⟩

theorem collectStagedEvent_eq_ok {collected next : CollectedEvents} {path : String}
    {bytes : Bytes} {added : Bool}
    (read : collectStagedEvent format collected path bytes added = .ok next) :
    next.reducerEvents =
        collected.reducerEvents ++ (knownEvent (format.parseEvent bytes)).toList ∧
      collected.stagedEventIds ⊆ next.stagedEventIds ∧
      (added = true → (∃ parsed, format.parseEvent bytes = .ok parsed) ∧
        ∀ event, knownEvent (format.parseEvent bytes) = some event →
          event.eventId ∈ next.stagedEventIds) := by
  unfold collectStagedEvent at read
  split at read
  · rename_i event parsed
    simp only [Result.seq_eq_ok, Result.require_eq_ok, Result.pure_eq_ok] at read
    obtain ⟨-, -, rfl⟩ := read
    rw [parsed]
    refine ⟨rfl, ?_, ?_⟩
    · cases added with
      | false => exact Finset.Subset.refl _
      | true => exact Finset.subset_insert _ _
    · intro isAdded
      refine ⟨⟨_, rfl⟩, fun other same => ?_⟩
      obtain rfl : event = other := Option.some.inj same
      rw [if_pos isAdded]
      exact Finset.mem_insert_self _ _
  · rename_i parsed
    rw [Result.pure_eq_ok] at read
    subst read
    rw [parsed]
    exact ⟨by simp [knownEvent], Finset.Subset.refl _, fun _ => ⟨⟨_, rfl⟩, by simp [knownEvent]⟩⟩
  · rename_i error parsed
    cases added with
    | true =>
        rw [if_pos rfl] at read
        split at read <;> simp at read
    | false =>
        rw [if_neg Bool.false_ne_true, Result.pure_eq_ok] at read
        subst read
        rw [parsed]
        exact ⟨by simp [knownEvent], Finset.Subset.refl _, by simp⟩

section Staged

variable {head index : FileTree}
  (stays : ∀ path bytes, head.get? path = some bytes → index.get? path = some bytes)
include stays

theorem foldlM_collectPath {added paths : List String} {collected final : CollectedEvents}
    (read : paths.foldlM (collectPath format head index added) collected = .ok final) :
    final.reducerEvents = collected.reducerEvents ++ paths.filterMap (eventAt format index) ∧
      collected.stagedEventIds ⊆ final.stagedEventIds ∧
      ∀ path ∈ paths, path ∈ added → Reads format index path ∧
        ∀ event, eventAt format index path = some event →
          event.eventId ∈ final.stagedEventIds := by
  induction paths generalizing collected with
  | nil =>
      rw [List.foldlM_nil, Result.pure_eq_ok] at read
      subst read
      exact ⟨by simp, Finset.Subset.refl _, by simp⟩
  | cons path paths ih =>
      rw [List.foldlM_cons, Result.bind_eq_ok] at read
      obtain ⟨next, readPath, readRest⟩ := read
      obtain ⟨restEvents, restIds, restAdded⟩ := ih readRest
      unfold collectPath at readPath
      simp only at readPath
      split at readPath
      · simp at readPath
      · rename_i bytes found
        have inIndex : index.get? path = some bytes := by
          by_cases isAdded : path ∈ added
          · simpa [isAdded] using found
          · exact stays path bytes (by simpa [isAdded] using found)
        have eventIs : eventAt format index path = knownEvent (format.parseEvent bytes) := by
          rw [eventAt, inIndex, Option.bind_some]
        obtain ⟨events, ids, here⟩ := collectStagedEvent_eq_ok readPath
        refine ⟨?_, ids.trans restIds, ?_⟩
        · rw [restEvents, events, List.append_assoc, ← eventIs]
          cases hold : eventAt format index path <;> simp [hold]
        · rintro other (_ | ⟨_, isRest⟩) isAdded
          · obtain ⟨⟨parsed, reads⟩, marked⟩ := here (by simpa using isAdded)
            refine ⟨⟨bytes, parsed, inIndex, reads⟩, fun event holds => restIds ?_⟩
            exact marked event (eventIs ▸ holds)
          · exact restAdded other isRest isAdded

end Staged

section Additions

variable {head index : FileTree}
  (stays : ∀ path bytes, head.get? path = some bytes → index.get? path = some bytes)
include stays

theorem mem_keys_of_stays (path : String) : path ∈ head.keys → path ∈ index.keys := by
  rw [BTreeMap.mem_keys_iff, BTreeMap.mem_keys_iff]
  rintro ⟨bytes, found⟩
  exact ⟨bytes, stays path bytes found⟩

theorem mem_changesBetween {path : String} :
    path ∈ (changesBetween head index).map NameStatus.path ↔
      path ∈ index.keys ∧ path ∉ head.keys := by
  simp only [List.mem_map, changesBetween, List.mem_filterMap, nameStatus_eq_some stays,
    mem_ordered]
  constructor
  · rintro ⟨change, ⟨path, -, rfl, isNew⟩, rfl⟩
    exact isNew
  · intro isNew
    exact ⟨_, ⟨path, Finset.mem_union_right _ isNew.1, rfl, isNew⟩, rfl⟩

theorem stagedEventPaths_perm {added : List String} (isDirectory : index.get? "events" = none)
    (areAdded : ∀ path, path ∈ added ↔ path ∈ index.keys ∧ path ∉ head.keys) :
    (stagedEventPaths head added).Perm (headPaths index "events") := by
  refine (List.perm_ext_iff_of_nodup ?_ (nodup_headPaths _ _)).mpr fun path => ?_
  · exact nodup_destutter_ne (List.pairwise_insertionSort _ _)
  · rw [stagedEventPaths, mem_destutter_ne, (List.perm_insertionSort _ _).mem_iff,
      List.mem_append, List.mem_filter, mem_headPaths, mem_headPaths, areAdded]
    have kept := mem_keys_of_stays stays path
    have below : path ∈ index.keys → (isUnder "events" path = true ↔
        isBelow "events" path = true) := by
      intro isKey
      have notRoot : path ≠ "events" := by
        rintro rfl
        exact BTreeMap.not_mem_keys_iff.mpr isDirectory isKey
      simp [isUnder, notRoot]
    tauto

theorem treeEvents_perm : (treeEvents format index).Perm (treeEvents format head ++
    ((headPaths index "events").filter fun path => path ∉ head.keys).filterMap
      (eventAt format index)) := by
  have oldPaths : ((headPaths index "events").filter fun path => path ∈ head.keys).Perm
      (headPaths head "events") := by
    refine (List.perm_ext_iff_of_nodup ((nodup_headPaths _ _).filter _)
      (nodup_headPaths _ _)).mpr fun path => ?_
    rw [List.mem_filter, mem_headPaths, mem_headPaths, decide_eq_true_iff]
    have kept := mem_keys_of_stays stays path
    tauto
  have sameEvents : (headPaths head "events").filterMap (eventAt format index) =
      treeEvents format head := by
    refine List.filterMap_congr fun path member => ?_
    obtain ⟨bytes, found⟩ := BTreeMap.mem_keys_iff.mp (mem_headPaths.mp member).1
    rw [eventAt, eventAt, found, stays path bytes found]
  have split := List.filter_append_perm (fun path => decide (path ∈ head.keys))
    (headPaths index "events")
  have events := (split.symm.trans (oldPaths.append_right _)).filterMap (eventAt format index)
  rw [List.filterMap_append, sameEvents] at events
  simpa [treeEvents] using events

end Additions

/-! ### Runs -/

theorem quarantinedEventIds_perm {events others : List ReducerEvent}
    (permuted : events.Perm others) :
    (reduce events hasher).quarantinedEventIds = (reduce others hasher).quarantinedEventIds := by
  ext id
  rw [mem_quarantinedEventIds, mem_quarantinedEventIds, Rejected, Rejected, factsOf_perm permuted]
  simp only [permuted.mem_iff]

/-- What the check of a staged change establishes. -/
structure Extends (format : StoreFormat) (hasher : ContentHasher) (head index : FileTree) :
    Prop where
  stays : ∀ path bytes, head.get? path = some bytes → index.get? path = some bytes
  managed : ∀ path ∈ index.keys, path ∉ head.keys →
    (managedRoots.any fun root => isUnder root path) = true
  reads : ∀ path ∈ headPaths index "events", path ∉ head.keys → Reads format index path
  quarantined : (reduce (treeEvents format index) hasher).quarantinedEventIds ⊆
    (reduce (treeEvents format head) hasher).quarantinedEventIds

theorem extends_of_validateStaged {head index : FileTree}
    (isDirectory : index.get? "events" = none)
    (checked : (validateStaged format hasher head index).isOk = true) :
    Extends format hasher head index := by
  obtain ⟨validation, checked⟩ := isOk_iff.mp checked
  simp only [validateStaged, Result.bind_eq_ok, requireAdditions_eq_ok,
    Result.exists_unit] at checked
  obtain ⟨paths, ⟨stays, managed, rfl⟩, collected, read, -, passed⟩ := checked
  have areAdded (path : String) : path ∈ ((changesBetween head index).map
      NameStatus.path).insertionSort (fun first second => first ≤ second) ↔
        path ∈ index.keys ∧ path ∉ head.keys := by
    rw [(List.perm_insertionSort _ _).mem_iff, mem_changesBetween stays]
  have paths := stagedEventPaths_perm stays isDirectory areAdded
  obtain ⟨events, -, marked⟩ := foldlM_collectPath stays read
  have permuted : collected.reducerEvents.Perm (treeEvents format index) := by
    rw [events, List.nil_append]
    exact paths.filterMap _
  have noneQuarantined : (reduce collected.reducerEvents hasher).quarantinedEventIds ∩
      collected.stagedEventIds = ∅ := by
    split at passed
    · rename_i nothing
      exact first?_eq_none.mp nothing
    · split at passed <;> simp at passed
  have isMarked {path : String} (isPath : path ∈ headPaths index "events")
      (isNew : path ∉ head.keys) := marked path (paths.mem_iff.mpr isPath)
    ((areAdded path).mpr ⟨(mem_headPaths.mp isPath).1, isNew⟩)
  refine ⟨stays, managed, fun path isPath isNew => (isMarked isPath isNew).1, ?_⟩
  have split : (treeEvents format index).Perm (treeEvents format head ++
      ((headPaths index "events").filter fun path => path ∉ head.keys).filterMap
        (eventAt format index)) := treeEvents_perm stays
  rw [quarantinedEventIds_perm split]
  apply quarantined_subset_of_accepted
  intro event member
  obtain ⟨path, isPath, holds⟩ := List.mem_filterMap.mp member
  obtain ⟨isPath, isNew⟩ := List.mem_filter.mp isPath
  have staged := (isMarked isPath (of_decide_eq_true isNew)).2 event holds
  rw [quarantinedEventIds_perm (permuted.trans split)] at noneQuarantined
  by_contra rejected
  have quarantined := (quarantined_iff (List.mem_append_right _ member)).mpr rejected
  exact Finset.notMem_empty _ (noneQuarantined ▸ Finset.mem_inter.mpr ⟨quarantined, staged⟩)

theorem Extends.refl (head : FileTree) : Extends format hasher head head :=
  ⟨fun _ _ found => found, fun _ isKey notKey => absurd isKey notKey,
    fun _ isPath notKey => absurd (mem_headPaths.mp isPath).1 notKey, Finset.Subset.refl _⟩

theorem Extends.trans {first second third : FileTree} (one : Extends format hasher first second)
    (other : Extends format hasher second third) : Extends format hasher first third where
  stays path bytes found := other.stays path bytes (one.stays path bytes found)
  managed path isKey notKey := by
    by_cases inSecond : path ∈ second.keys
    · exact one.managed path inSecond notKey
    · exact other.managed path isKey inSecond
  reads path isPath notKey := by
    by_cases inSecond : path ∈ second.keys
    · obtain ⟨bytes, parsed, found, reads⟩ :=
        one.reads path (mem_headPaths.mpr ⟨inSecond, (mem_headPaths.mp isPath).2⟩) notKey
      exact ⟨bytes, parsed, other.stays path bytes found, reads⟩
    · exact other.reads path isPath inSecond
  quarantined := other.quarantined.trans one.quarantined

/-- One commit after another, each of a staged change that passed the check.  In the
work tree `events` is a directory. -/
inductive CheckedRun (format : StoreFormat) (hasher : ContentHasher) :
    FileTree → FileTree → Prop
  | refl (head : FileTree) : CheckedRun format hasher head head
  | commit {start head index : FileTree} (run : CheckedRun format hasher start head)
      (isDirectory : index.get? "events" = none)
      (checked : (validateStaged format hasher head index).isOk = true) :
      CheckedRun format hasher start index

theorem CheckedRun.extends {start final : FileTree} (run : CheckedRun format hasher start final) :
    Extends format hasher start final := by
  induction run with
  | refl => exact .refl _
  | commit run isDirectory checked ih =>
      exact ih.trans (extends_of_validateStaged isDirectory checked)

/-- An event lies at the path that its id generates. -/
def IsCanonical (format : StoreFormat) (tree : FileTree) (path : String) : Prop :=
  ∀ event, eventAt format tree path = some event → RepositoryPath.eventText event.eventId = path

theorem collectCommittedEvent_eq_ok {head : FileTree} {events next : List ReducerEvent}
    {path : String} : collectCommittedEvent format head events path = .ok next ↔
      (Reads format head path ∧ IsCanonical format head path) ∧
        events ++ (eventAt format head path).toList = next := by
  unfold collectCommittedEvent Reads IsCanonical eventAt
  cases head.get? path with
  | none => simp
  | some bytes =>
      cases parsed : format.parseEvent bytes with
      | error error => simp [parsed]
      | ok stored =>
          cases stored with
          | unknownSchema => simp [parsed, knownEvent]
          | known event =>
              simp only [parsed, Result.seq_eq_ok, Result.require_eq_ok, Result.pure_eq_ok]
              simp [parsed, knownEvent]

theorem foldlM_collectCommittedEvent {head : FileTree} {paths : List String}
    {events final : List ReducerEvent} :
    paths.foldlM (collectCommittedEvent format head) events = .ok final ↔
      (∀ path ∈ paths, Reads format head path ∧ IsCanonical format head path) ∧
        events ++ paths.filterMap (eventAt format head) = final := by
  induction paths generalizing events with
  | nil => simp [pure, Except.pure]
  | cons path paths ih =>
      simp only [List.foldlM_cons, Result.bind_eq_ok, collectCommittedEvent_eq_ok, ih,
        List.forall_mem_cons]
      constructor
      · rintro ⟨next, ⟨here, rfl⟩, rest, rfl⟩
        refine ⟨⟨here, rest⟩, ?_⟩
        cases holds : eventAt format head path <;> simp [holds]
      · rintro ⟨⟨here, rest⟩, rfl⟩
        refine ⟨_, ⟨here, rfl⟩, rest, ?_⟩
        cases holds : eventAt format head path <;> simp [holds]

theorem validateCommittedEvents_isOk {head : FileTree} :
    (validateCommittedEvents format hasher head).isOk = true ↔
      (∀ path ∈ headPaths head "events", Reads format head path ∧ IsCanonical format head path) ∧
        (reduce (treeEvents format head) hasher).quarantinedEventIds = ∅ := by
  simp only [isOk_iff, validateCommittedEvents, Result.bind_eq_ok,
    foldlM_collectCommittedEvent, List.nil_append]
  constructor
  · rintro ⟨count, events, ⟨read, rfl⟩, passed⟩
    refine ⟨read, ?_⟩
    split at passed
    · rename_i nothing
      exact first?_eq_none.mp nothing
    · simp at passed
  · rintro ⟨read, clean⟩
    have nothing : first? (reduce (treeEvents format head) hasher).quarantinedEventIds = none :=
      first?_eq_none.mpr clean
    refine ⟨(headPaths head "events").length, treeEvents format head, ⟨read, rfl⟩, ?_⟩
    rw [nothing]
    rfl

/-- A format whose only event is the creation of the sample Space. -/
def sampleFormat : StoreFormat where
  parseEvent bytes := if bytes = [1] then .ok (.known sampleCreation) else .error "not JSON"
  candidateSubmissionHint _ := none
  sha256 _ := ""
  treeOid _ := ""
  diagnosticText _ _ := none

def sampleTree (path : String) : FileTree :=
  BTreeMap.empty.insert path [1]

end SharedContext.StagedEvents
