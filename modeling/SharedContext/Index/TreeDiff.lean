import Mathlib.Data.List.Perm.Basic
import Mathlib.Data.String.Basic
import SharedContext.Library.Edits

/-!
# Differences of trees

Two listings of the managed paths are compared.  A path that went away is the old
path of a new one with the same blob, or deleted.  Only a tree in which paths were
added alone may be read incrementally.
-/

namespace SharedContext.Index

structure TreeEntry where
  path : String
  oid : String
  deriving DecidableEq

/-- The managed blobs of a tree, each path once, in the order of the paths. -/
structure TreeListing where
  entries : List TreeEntry
  sorted : entries.Pairwise fun first second => first.path < second.path

inductive TreeChange
  | added (path oid : String)
  | modified (path oid : String)
  | deleted (path : String)
  | renamed (oldPath newPath : String)
  deriving DecidableEq, Repr

namespace TreeChange

def isAddition : TreeChange → Bool
  | .added _ _ => true
  | _ => false

def path : TreeChange → String
  | .added path _ | .modified path _ | .deleted path => path
  | .renamed _ newPath => newPath

/-- The paths at which a tree differs by a change. -/
def touched : TreeChange → List String
  | .added path _ | .modified path _ | .deleted path => [path]
  | .renamed oldPath newPath => [oldPath, newPath]

/-- The path that a change adds to a tree. -/
def addedPath? : TreeChange → Option String
  | .added path _ | .renamed _ path => some path
  | .modified _ _ | .deleted _ => none

def removedPath? : TreeChange → Option String
  | .deleted path | .renamed path _ => some path
  | .added _ _ | .modified _ _ => none

def modifiedPath? : TreeChange → Option String
  | .modified path _ => some path
  | .added _ _ | .deleted _ | .renamed _ _ => none

/-- The tree with a change made; a renamed path takes its blob along. -/
def apply (tree : BTreeMap String String) : TreeChange → BTreeMap String String
  | .added path oid | .modified path oid => tree.insert path oid
  | .deleted path => tree.erase path
  | .renamed oldPath newPath =>
      match tree.get? oldPath with
      | some oid => (tree.erase oldPath).insert newPath oid
      | none => tree

end TreeChange

/-! ### Comparing two listings -/

def TreeListing.tree (listing : TreeListing) : BTreeMap String String :=
  listing.entries.foldl (fun tree entry => tree.insert entry.path entry.oid) .empty

/-- Additions with the deleted paths of their blobs, and what has no counterpart. -/
structure RenameMatch where
  renames : List (String × String)
  additions : List (String × String)
  deleted : List (String × String)

/-- Each addition in turn takes the first deleted path with its blob. -/
def matchRenames : List (String × String) → List (String × String) → RenameMatch
  | [], deleted => ⟨[], [], deleted⟩
  | (path, oid) :: rest, deleted =>
      match deleted.find? fun entry => entry.2 = oid with
      | some entry =>
          let rest := matchRenames rest (deleted.erase entry)
          { rest with renames := (entry.1, path) :: rest.renames }
      | none =>
          let rest := matchRenames rest deleted
          { rest with additions := (path, oid) :: rest.additions }

section Trees

variable (old new : BTreeMap String String)

def deletedEntries : List (String × String) :=
  old.entries.filter fun entry => entry.1 ∉ new.keys

def addedEntries : List (String × String) :=
  new.entries.filter fun entry => entry.1 ∉ old.keys

def modifiedEntries : List (String × String) :=
  new.entries.filter fun entry => (old.get? entry.1).any fun oid => oid ≠ entry.2

def unsortedChanges : List TreeChange :=
  let matched := matchRenames (addedEntries old new) (deletedEntries old new)
  matched.renames.map (fun rename => .renamed rename.1 rename.2) ++
    matched.additions.map (fun entry => .added entry.1 entry.2) ++
    (modifiedEntries old new).map (fun entry => .modified entry.1 entry.2) ++
    matched.deleted.map fun entry => .deleted entry.1

def treeChanges : List TreeChange :=
  (unsortedChanges old new).insertionSort fun first second => first.path ≤ second.path

end Trees

def diffTrees (old new : TreeListing) : List TreeChange :=
  treeChanges old.tree new.tree

/-- The paths that a warning about the append-only protocol names. -/
def bypassedPaths (changes : List TreeChange) : List String :=
  (changes.filter fun change => !change.isAddition).map fun change =>
    match change with
    | .renamed oldPath newPath => oldPath ++ " -> " ++ newPath
    | change => change.path

/-- Whether a tree is read again from nothing because more than additions happened. -/
def appendProtocolBypassed (changes : List TreeChange) : Bool :=
  changes.any fun change => !change.isAddition

inductive IncrementalFallback
  | indexedTreeUnavailable
  | appendProtocolBypassed
  | cachedSourceMismatch
  | impactClosureUnproven
  deriving DecidableEq

/-- The warnings on record stay, or those of a comparison take their place: each
has a code and paths. -/
inductive OperationalWarningsUpdate
  | carryForward
  | fresh (warnings : List (String × List String))
  deriving DecidableEq

inductive UpdatePlan
  | full (fallback : IncrementalFallback) (operationalWarnings : OperationalWarningsUpdate)
  | incremental
  deriving DecidableEq

/-- Whether the cached blobs with the added ones are those of the tree. -/
def cachedSourcesAgree (cached : List TreeEntry) (changes : List TreeChange)
    (head : TreeListing) : Bool :=
  let blobs := cached ++ changes.filterMap fun change =>
    match change with
    | .added path oid => some ⟨path, oid⟩
    | _ => none
  decide (blobs.foldl (fun tree blob => tree.insert blob.path blob.oid) .empty = head.tree ∧
    head.tree.keys.card = blobs.length)

/-- How an index of one tree is brought to another; the indexed tree may be gone
from the repository. -/
def planTreeChange (indexed : Option TreeListing) (head : TreeListing)
    (cached : List TreeEntry) (impactProven : Bool) : UpdatePlan :=
  match indexed with
  | none => .full .indexedTreeUnavailable .carryForward
  | some indexed =>
      let changes := diffTrees indexed head
      if appendProtocolBypassed changes then
        .full .appendProtocolBypassed
          (.fresh [("APPEND_PROTOCOL_BYPASSED", bypassedPaths changes)])
      else if cachedSourcesAgree cached changes head = false then
        .full .cachedSourceMismatch (.fresh [])
      else if impactProven = false then .full .impactClosureUnproven (.fresh [])
      else .incremental

/-! ### Matching renames -/

theorem matchRenames_added (additions deleted : List (String × String)) :
    (additions.map Prod.fst).Perm
      ((matchRenames additions deleted).renames.map Prod.snd ++
        (matchRenames additions deleted).additions.map Prod.fst) := by
  induction additions generalizing deleted with
  | nil => exact List.Perm.refl _
  | cons addition rest ih =>
      obtain ⟨path, oid⟩ := addition
      rw [matchRenames]
      split
      · rename_i entry _
        simpa using ih (deleted.erase entry)
      · refine ((ih deleted).cons path).trans ?_
        exact List.perm_middle.symm

theorem matchRenames_deleted (additions deleted : List (String × String)) :
    (deleted.map Prod.fst).Perm
      ((matchRenames additions deleted).renames.map Prod.fst ++
        (matchRenames additions deleted).deleted.map Prod.fst) := by
  induction additions generalizing deleted with
  | nil => exact List.Perm.refl _
  | cons addition rest ih =>
      obtain ⟨path, oid⟩ := addition
      rw [matchRenames]
      split
      · rename_i entry found
        have taken := (List.perm_cons_erase (List.mem_of_find?_eq_some found)).map Prod.fst
        exact taken.trans ((ih (deleted.erase entry)).cons entry.1)
      · exact ih deleted

theorem matchRenames_sameBlob {additions deleted : List (String × String)}
    {rename : String × String} (member : rename ∈ (matchRenames additions deleted).renames) :
    ∃ oid, (rename.1, oid) ∈ deleted ∧ (rename.2, oid) ∈ additions := by
  induction additions generalizing deleted with
  | nil => exact absurd member List.not_mem_nil
  | cons addition rest ih =>
      obtain ⟨path, oid⟩ := addition
      rw [matchRenames] at member
      split at member
      · rename_i entry found
        rcases List.mem_cons.mp member with rfl | later
        · have sameOid : entry.2 = oid := by simpa using List.find?_some found
          refine ⟨oid, ?_, List.mem_cons_self⟩
          rw [← sameOid]
          exact List.mem_of_find?_eq_some found
        · obtain ⟨other, wasDeleted, wasAdded⟩ := ih later
          exact ⟨other, List.mem_of_mem_erase wasDeleted, List.mem_cons_of_mem _ wasAdded⟩
      · obtain ⟨other, wasDeleted, wasAdded⟩ := ih member
        exact ⟨other, wasDeleted, List.mem_cons_of_mem _ wasAdded⟩

theorem matchRenames_additions_subset (additions deleted : List (String × String)) :
    (matchRenames additions deleted).additions ⊆ additions := by
  induction additions generalizing deleted with
  | nil => exact List.Subset.refl _
  | cons addition rest ih =>
      obtain ⟨path, oid⟩ := addition
      rw [matchRenames]
      split
      · exact List.Subset.trans (ih _) (List.subset_cons_self _ _)
      · exact List.cons_subset_cons _ (ih _)

theorem matchRenames_deleted_subset (additions deleted : List (String × String)) :
    (matchRenames additions deleted).deleted ⊆ deleted := by
  induction additions generalizing deleted with
  | nil => exact List.Subset.refl _
  | cons addition rest ih =>
      obtain ⟨path, oid⟩ := addition
      rw [matchRenames]
      split
      · exact List.Subset.trans (ih _) List.erase_subset
      · exact ih _

/-! ### The changes between two trees -/

section Changes

variable {old new : BTreeMap String String}

theorem mem_deletedEntries {entry : String × String} :
    entry ∈ deletedEntries old new ↔
      old.get? entry.1 = some entry.2 ∧ new.get? entry.1 = none := by
  obtain ⟨path, oid⟩ := entry
  simp [deletedEntries, BTreeMap.mem_entries, BTreeMap.not_mem_keys_iff]

theorem mem_addedEntries {entry : String × String} :
    entry ∈ addedEntries old new ↔
      new.get? entry.1 = some entry.2 ∧ old.get? entry.1 = none := by
  obtain ⟨path, oid⟩ := entry
  simp [addedEntries, BTreeMap.mem_entries, BTreeMap.not_mem_keys_iff]

theorem mem_modifiedEntries {entry : String × String} :
    entry ∈ modifiedEntries old new ↔
      new.get? entry.1 = some entry.2 ∧ ∃ oid, old.get? entry.1 = some oid ∧ oid ≠ entry.2 := by
  obtain ⟨path, oid⟩ := entry
  simp [modifiedEntries, BTreeMap.mem_entries, Option.any_eq_true]

/-- A change says what the two trees have at the paths it touches. -/
def TreeChange.Describes (old new : BTreeMap String String) : TreeChange → Prop
  | .added path oid => old.get? path = none ∧ new.get? path = some oid
  | .modified path oid =>
      new.get? path = some oid ∧ ∃ before, old.get? path = some before ∧ before ≠ oid
  | .deleted path => new.get? path = none ∧ ∃ oid, old.get? path = some oid
  | .renamed oldPath newPath => ∃ oid, old.get? oldPath = some oid ∧ new.get? oldPath = none ∧
      old.get? newPath = none ∧ new.get? newPath = some oid

theorem describes_of_mem {change : TreeChange} (member : change ∈ treeChanges old new) :
    change.Describes old new := by
  rw [treeChanges, List.mem_insertionSort, unsortedChanges] at member
  simp only [List.mem_append, List.mem_map] at member
  rcases member with ((⟨rename, renamed, rfl⟩ | ⟨entry, added, rfl⟩) |
    ⟨entry, modified, rfl⟩) | ⟨entry, deleted, rfl⟩
  · obtain ⟨oid, wasDeleted, wasAdded⟩ := matchRenames_sameBlob renamed
    obtain ⟨oldHas, newLacks⟩ := mem_deletedEntries.mp wasDeleted
    obtain ⟨newHas, oldLacks⟩ := mem_addedEntries.mp wasAdded
    exact ⟨oid, oldHas, newLacks, oldLacks, newHas⟩
  · obtain ⟨newHas, oldLacks⟩ :=
      mem_addedEntries.mp (matchRenames_additions_subset _ _ added)
    exact ⟨oldLacks, newHas⟩
  · exact mem_modifiedEntries.mp modified
  · obtain ⟨oldHas, newLacks⟩ :=
      mem_deletedEntries.mp (matchRenames_deleted_subset _ _ deleted)
    exact ⟨newLacks, entry.2, oldHas⟩

theorem touched_perm : ((treeChanges old new).flatMap TreeChange.touched).Perm
    ((addedEntries old new).map Prod.fst ++ (deletedEntries old new).map Prod.fst ++
      (modifiedEntries old new).map Prod.fst) := by
  have unsorted := (List.perm_insertionSort (fun first second : TreeChange =>
    first.path ≤ second.path) (unsortedChanges old new)).flatMap_right TreeChange.touched
  refine unsorted.trans ?_
  have added := matchRenames_added (addedEntries old new) (deletedEntries old new)
  have deleted := matchRenames_deleted (addedEntries old new) (deletedEntries old new)
  generalize matchesEq : matchRenames (addedEntries old new) (deletedEntries old new) = matched
    at added deleted
  have bothEnds : (matched.renames.flatMap fun rename => [rename.1, rename.2]).Perm
      (matched.renames.map Prod.fst ++ matched.renames.map Prod.snd) := by
    have both := List.flatMap_append_perm matched.renames (fun rename => [rename.1])
      fun rename => [rename.2]
    simpa [List.map_eq_flatMap] using both.symm
  have listed : (unsortedChanges old new).flatMap TreeChange.touched =
      (matched.renames.flatMap fun rename => [rename.1, rename.2]) ++
        matched.additions.map Prod.fst ++ (modifiedEntries old new).map Prod.fst ++
          matched.deleted.map Prod.fst := by
    simp only [unsortedChanges, matchesEq, List.flatMap_append, List.flatMap_map,
      TreeChange.touched]
    simp only [List.map_eq_flatMap]
  rw [listed]
  refine List.perm_iff_count.mpr fun path => ?_
  have renamedCount := bothEnds.count_eq path
  have addedCount := added.count_eq path
  have deletedCount := deleted.count_eq path
  simp only [List.count_append] at renamedCount addedCount deletedCount ⊢
  omega

theorem nodup_touched : ((treeChanges old new).flatMap TreeChange.touched).Nodup := by
  rw [touched_perm.nodup_iff]
  have oldNodup := BTreeMap.nodup_keys_entries old
  have newNodup := BTreeMap.nodup_keys_entries new
  have addedNodup : ((addedEntries old new).map Prod.fst).Nodup :=
    newNodup.sublist (List.filter_sublist.map Prod.fst)
  have deletedNodup : ((deletedEntries old new).map Prod.fst).Nodup :=
    oldNodup.sublist (List.filter_sublist.map Prod.fst)
  have modifiedNodup : ((modifiedEntries old new).map Prod.fst).Nodup :=
    newNodup.sublist (List.filter_sublist.map Prod.fst)
  refine List.Nodup.append (List.Nodup.append addedNodup deletedNodup ?_) modifiedNodup ?_
  · intro path added deleted
    obtain ⟨entry, isAdded, rfl⟩ := List.mem_map.mp added
    obtain ⟨other, isDeleted, same⟩ := List.mem_map.mp deleted
    have newHas := (mem_addedEntries.mp isAdded).1
    have newLacks := (mem_deletedEntries.mp isDeleted).2
    rw [same, newHas] at newLacks
    cases newLacks
  · intro path earlier modified
    obtain ⟨entry, isModified, rfl⟩ := List.mem_map.mp modified
    obtain ⟨newHas, before, oldHas, _⟩ := mem_modifiedEntries.mp isModified
    rcases List.mem_append.mp earlier with added | deleted
    · obtain ⟨other, isAdded, same⟩ := List.mem_map.mp added
      have oldLacks := (mem_addedEntries.mp isAdded).2
      rw [same, oldHas] at oldLacks
      cases oldLacks
    · obtain ⟨other, isDeleted, same⟩ := List.mem_map.mp deleted
      have newLacks := (mem_deletedEntries.mp isDeleted).2
      rw [same, newHas] at newLacks
      cases newLacks

theorem same_of_untouched {path : String}
    (untouched : path ∉ (treeChanges old new).flatMap TreeChange.touched) :
    old.get? path = new.get? path := by
  rw [touched_perm.mem_iff] at untouched
  simp only [List.mem_append, not_or, List.mem_map, not_exists, not_and] at untouched
  obtain ⟨⟨notAdded, notDeleted⟩, notModified⟩ := untouched
  cases oldHas : old.get? path with
  | none =>
      cases newHas : new.get? path with
      | none => rfl
      | some oid => exact absurd rfl (notAdded (path, oid) (mem_addedEntries.mpr ⟨newHas, oldHas⟩))
  | some before =>
      cases newHas : new.get? path with
      | none =>
          exact absurd rfl (notDeleted (path, before) (mem_deletedEntries.mpr ⟨oldHas, newHas⟩))
      | some oid =>
          by_cases same : before = oid
          · rw [same]
          · exact absurd rfl (notModified (path, oid)
              (mem_modifiedEntries.mpr ⟨newHas, before, oldHas, same⟩))

/-! ### Making the changes -/

theorem leavesUntouched_apply :
    BTreeMap.LeavesUntouched TreeChange.touched TreeChange.apply := by
  intro tree change path untouched
  cases change with
  | added other oid | modified other oid =>
      have different : path ≠ other := by simpa [TreeChange.touched] using untouched
      rw [TreeChange.apply, BTreeMap.get?_insert, if_neg different]
  | deleted other =>
      have different : path ≠ other := by simpa [TreeChange.touched] using untouched
      rw [TreeChange.apply, BTreeMap.get?_erase, if_neg different]
  | renamed oldPath newPath =>
      have different : path ≠ oldPath ∧ path ≠ newPath := by
        simpa [TreeChange.touched] using untouched
      rw [TreeChange.apply]
      split
      · rw [BTreeMap.get?_insert, if_neg different.2, BTreeMap.get?_erase, if_neg different.1]
      · rfl

theorem reaches_of_describes {change : TreeChange} (describes : change.Describes old new) :
    BTreeMap.Reaches TreeChange.touched TreeChange.apply old new change := by
  intro tree agrees path touches
  cases change with
  | added other oid =>
      obtain rfl := List.mem_singleton.mp touches
      rw [TreeChange.apply, BTreeMap.get?_insert, if_pos rfl, describes.2]
  | modified other oid =>
      obtain rfl := List.mem_singleton.mp touches
      rw [TreeChange.apply, BTreeMap.get?_insert, if_pos rfl, describes.1]
  | deleted other =>
      obtain rfl := List.mem_singleton.mp touches
      rw [TreeChange.apply, BTreeMap.get?_erase, if_pos rfl, describes.1]
  | renamed oldPath newPath =>
      obtain ⟨oid, oldHas, newLacks, oldLacks, newHas⟩ := describes
      have different : oldPath ≠ newPath := by
        rintro rfl
        rw [oldHas] at oldLacks
        cases oldLacks
      have treeHas : tree.get? oldPath = some oid :=
        (agrees oldPath List.mem_cons_self).trans oldHas
      rw [TreeChange.apply, treeHas]
      simp only [BTreeMap.get?_insert, BTreeMap.get?_erase]
      rcases List.mem_cons.mp touches with rfl | isNew
      · rw [if_neg different, if_pos rfl, newLacks]
      · rw [if_pos (List.mem_singleton.mp isNew), List.mem_singleton.mp isNew, newHas]

theorem apply_treeChanges (old new : BTreeMap String String) :
    (treeChanges old new).foldl TreeChange.apply old = new :=
  BTreeMap.foldl_edits_eq leavesUntouched_apply nodup_touched
    (fun _ member => reaches_of_describes (describes_of_mem member))
    fun _ untouched => same_of_untouched untouched

/-! ### What the changes are -/

theorem trees_of_addedPath {change : TreeChange} (describes : change.Describes old new)
    {path : String} (added : change.addedPath? = some path) :
    old.get? path = none ∧ new.get? path ≠ none := by
  cases change with
  | added other oid =>
      obtain rfl := Option.some.inj added
      exact ⟨describes.1, by simp [describes.2]⟩
  | modified other oid => cases added
  | deleted other => cases added
  | renamed oldPath newPath =>
      obtain rfl := Option.some.inj added
      obtain ⟨oid, _, _, oldLacks, newHas⟩ := describes
      exact ⟨oldLacks, by simp [newHas]⟩

theorem trees_of_removedPath {change : TreeChange} (describes : change.Describes old new)
    {path : String} (removed : change.removedPath? = some path) :
    old.get? path ≠ none ∧ new.get? path = none := by
  cases change with
  | added other oid => cases removed
  | modified other oid => cases removed
  | deleted other =>
      obtain rfl := Option.some.inj removed
      obtain ⟨newLacks, oid, oldHas⟩ := describes
      exact ⟨by simp [oldHas], newLacks⟩
  | renamed oldPath newPath =>
      obtain rfl := Option.some.inj removed
      obtain ⟨oid, oldHas, newLacks, _, _⟩ := describes
      exact ⟨by simp [oldHas], newLacks⟩

theorem trees_of_modifiedPath {change : TreeChange} (describes : change.Describes old new)
    {path : String} (modified : change.modifiedPath? = some path) :
    old.get? path ≠ none ∧ new.get? path ≠ none := by
  cases change with
  | added other oid => cases modified
  | modified other oid =>
      obtain rfl := Option.some.inj modified
      obtain ⟨newHas, before, oldHas, _⟩ := describes
      exact ⟨by simp [oldHas], by simp [newHas]⟩
  | deleted other => cases modified
  | renamed oldPath newPath => cases modified

theorem survives_of_additions
    (additions : ∀ change ∈ treeChanges old new, change.isAddition = true) {path oid : String}
    (oldHas : old.get? path = some oid) : new.get? path = some oid := by
  have untouched : path ∉ (treeChanges old new).flatMap TreeChange.touched := by
    intro touches
    obtain ⟨change, member, atPath⟩ := List.mem_flatMap.mp touches
    have describes := describes_of_mem member
    cases change with
    | added other added =>
        obtain rfl := List.mem_singleton.mp atPath
        rw [describes.1] at oldHas
        cases oldHas
    | modified | deleted | renamed => exact absurd (additions _ member) Bool.false_ne_true
  rw [← same_of_untouched untouched]
  exact oldHas

theorem isAddition_of_survives
    (survives : ∀ path oid, old.get? path = some oid → new.get? path = some oid)
    {change : TreeChange} (describes : change.Describes old new) : change.isAddition = true := by
  cases change with
  | added => rfl
  | modified path oid =>
      obtain ⟨newHas, before, oldHas, different⟩ := describes
      rw [survives path before oldHas] at newHas
      exact absurd (Option.some.inj newHas) different
  | deleted path =>
      obtain ⟨newLacks, oid, oldHas⟩ := describes
      rw [survives path oid oldHas] at newLacks
      cases newLacks
  | renamed oldPath newPath =>
      obtain ⟨oid, oldHas, newLacks, _, _⟩ := describes
      rw [survives oldPath oid oldHas] at newLacks
      cases newLacks

end Changes

/-! ### Listings -/

theorem get?_foldl_insert {entries : List TreeEntry}
    (apart : entries.Pairwise fun first second => first.path ≠ second.path)
    (tree : BTreeMap String String) {entry : TreeEntry} (member : entry ∈ entries) :
    (entries.foldl (fun tree entry => tree.insert entry.path entry.oid) tree).get? entry.path =
      some entry.oid := by
  induction entries using List.reverseRecOn generalizing tree with
  | nil => exact absurd member List.not_mem_nil
  | append_singleton before last ih =>
      obtain ⟨beforeApart, _, lastApart⟩ := List.pairwise_append.mp apart
      rw [List.foldl_append, List.foldl_cons, List.foldl_nil, BTreeMap.get?_insert]
      rcases List.mem_append.mp member with inBefore | isLast
      · have different := lastApart entry inBefore last List.mem_cons_self
        rw [if_neg different]
        exact ih beforeApart tree inBefore
      · obtain rfl := List.mem_singleton.mp isLast
        rw [if_pos rfl]

theorem mem_of_get?_foldl_insert {entries : List TreeEntry} {tree : BTreeMap String String}
    {path oid : String}
    (found : (entries.foldl (fun tree entry => tree.insert entry.path entry.oid) tree).get? path =
      some oid) : tree.get? path = some oid ∨ (⟨path, oid⟩ : TreeEntry) ∈ entries := by
  induction entries generalizing tree with
  | nil => exact Or.inl found
  | cons entry rest ih =>
      rcases ih found with earlier | later
      · rw [BTreeMap.get?_insert] at earlier
        split at earlier
        · rename_i same
          right
          rw [same, ← Option.some.inj earlier]
          exact List.mem_cons_self
        · exact Or.inl earlier
      · exact Or.inr (List.mem_cons_of_mem _ later)

def treeOf (blobs : List TreeEntry) : BTreeMap String String :=
  blobs.foldl (fun tree blob => tree.insert blob.path blob.oid) .empty

theorem get?_treeOf {blobs : List TreeEntry}
    (apart : blobs.Pairwise fun first second => first.path ≠ second.path) {path oid : String} :
    (treeOf blobs).get? path = some oid ↔ (⟨path, oid⟩ : TreeEntry) ∈ blobs := by
  constructor
  · intro found
    rcases mem_of_get?_foldl_insert found with absent | member
    · rw [BTreeMap.get?_empty] at absent
      cases absent
    · exact member
  · exact get?_foldl_insert apart .empty

theorem TreeListing.apart (listing : TreeListing) :
    listing.entries.Pairwise fun first second => first.path ≠ second.path :=
  listing.sorted.imp ne_of_lt

theorem TreeListing.nodup (listing : TreeListing) : listing.entries.Nodup :=
  listing.apart.imp fun different same => different (congrArg TreeEntry.path same)

theorem TreeListing.get?_tree (listing : TreeListing) {path oid : String} :
    listing.tree.get? path = some oid ↔ (⟨path, oid⟩ : TreeEntry) ∈ listing.entries :=
  get?_treeOf listing.apart

/-- The added, the removed and the modified paths are apart, the changes lead from
the old tree to the new one, and they are append-only exactly if every old path is
there with its blob. -/
theorem tree_diff_exact (old new : TreeListing) :
    (((diffTrees old new).filterMap TreeChange.addedPath?).Disjoint
        ((diffTrees old new).filterMap TreeChange.removedPath?) ∧
      ((diffTrees old new).filterMap TreeChange.addedPath?).Disjoint
        ((diffTrees old new).filterMap TreeChange.modifiedPath?) ∧
      ((diffTrees old new).filterMap TreeChange.removedPath?).Disjoint
        ((diffTrees old new).filterMap TreeChange.modifiedPath?)) ∧
    (diffTrees old new).foldl TreeChange.apply old.tree = new.tree ∧
    (appendProtocolBypassed (diffTrees old new) = false ↔
      ∀ entry ∈ old.entries, entry ∈ new.entries) := by
  refine ⟨⟨?_, ?_, ?_⟩, apply_treeChanges old.tree new.tree, ?_⟩
  · intro path added removed
    obtain ⟨change, member, isAdded⟩ := List.mem_filterMap.mp added
    obtain ⟨other, otherMember, isRemoved⟩ := List.mem_filterMap.mp removed
    have oldLacks := (trees_of_addedPath (describes_of_mem member) isAdded).1
    exact (trees_of_removedPath (describes_of_mem otherMember) isRemoved).1 oldLacks
  · intro path added modified
    obtain ⟨change, member, isAdded⟩ := List.mem_filterMap.mp added
    obtain ⟨other, otherMember, isModified⟩ := List.mem_filterMap.mp modified
    have oldLacks := (trees_of_addedPath (describes_of_mem member) isAdded).1
    exact (trees_of_modifiedPath (describes_of_mem otherMember) isModified).1 oldLacks
  · intro path removed modified
    obtain ⟨change, member, isRemoved⟩ := List.mem_filterMap.mp removed
    obtain ⟨other, otherMember, isModified⟩ := List.mem_filterMap.mp modified
    have newLacks := (trees_of_removedPath (describes_of_mem member) isRemoved).2
    exact (trees_of_modifiedPath (describes_of_mem otherMember) isModified).2 newLacks
  · have additions : appendProtocolBypassed (diffTrees old new) = false ↔
        ∀ change ∈ diffTrees old new, change.isAddition = true := by
      simp [appendProtocolBypassed, List.any_eq_false]
    rw [additions]
    constructor
    · intro allAdditions entry member
      have oldHas := old.get?_tree.mpr member
      exact new.get?_tree.mp (survives_of_additions allAdditions oldHas)
    · intro survives change member
      refine isAddition_of_survives (fun path oid oldHas => ?_) (describes_of_mem member)
      exact new.get?_tree.mpr (survives _ (old.get?_tree.mp oldHas))

/-! ### Reading a tree incrementally -/

theorem TreeListing.card_keys (listing : TreeListing) :
    listing.tree.keys.card = listing.entries.length := by
  have keysEq : listing.tree.keys = (listing.entries.map TreeEntry.path).toFinset := by
    ext path
    simp only [BTreeMap.mem_keys_iff, listing.get?_tree, List.mem_toFinset, List.mem_map]
    exact ⟨fun ⟨oid, member⟩ => ⟨_, member, rfl⟩, fun ⟨entry, member, isPath⟩ =>
      ⟨entry.oid, isPath ▸ member⟩⟩
  rw [keysEq, List.toFinset_card_of_nodup (List.pairwise_map.mpr listing.apart), List.length_map]

theorem treeOf_agrees_iff {blobs : List TreeEntry} {listing : TreeListing} :
    treeOf blobs = listing.tree ∧ listing.tree.keys.card = blobs.length ↔
      blobs.Perm listing.entries := by
  rw [listing.card_keys]
  constructor
  · rintro ⟨sameTree, sameLength⟩
    have subset : listing.entries ⊆ blobs := by
      intro entry member
      have found := listing.get?_tree.mpr member
      rw [← sameTree] at found
      rcases mem_of_get?_foldl_insert found with absent | member
      · rw [BTreeMap.get?_empty] at absent
        cases absent
      · exact member
    exact ((listing.nodup.subperm subset).perm_of_length_le sameLength.ge).symm
  · intro permuted
    have apart : blobs.Pairwise fun first second => first.path ≠ second.path :=
      permuted.symm.pairwise listing.apart fun different => different.symm
    refine ⟨BTreeMap.ext fun path => Option.ext fun oid => ?_, permuted.length_eq.symm⟩
    rw [get?_treeOf apart, listing.get?_tree, permuted.mem_iff]

section Additions

variable {old new : TreeListing}

def addedBlob? : TreeChange → Option TreeEntry
  | .added path oid => some ⟨path, oid⟩
  | _ => none

theorem touched_of_additions {changes : List TreeChange}
    (additions : ∀ change ∈ changes, change.isAddition = true) :
    changes.flatMap TreeChange.touched = (changes.filterMap addedBlob?).map TreeEntry.path := by
  induction changes with
  | nil => rfl
  | cons change changes ih =>
      have rest := ih fun other member => additions other (List.mem_cons_of_mem _ member)
      cases change with
      | added path oid => simpa [addedBlob?, TreeChange.touched] using rest
      | modified | deleted | renamed =>
          exact absurd (additions _ List.mem_cons_self) Bool.false_ne_true

/-- The blobs that are added are those of the new tree that the old one lacks. -/
theorem addedBlobs_perm
    (additions : ∀ change ∈ diffTrees old new, change.isAddition = true) :
    ((diffTrees old new).filterMap addedBlob?).Perm
      (new.entries.filter fun entry => entry ∉ old.entries) := by
  have nodup : ((diffTrees old new).flatMap TreeChange.touched).Nodup := nodup_touched
  rw [touched_of_additions additions] at nodup
  refine (List.perm_ext_iff_of_nodup nodup.of_map (new.nodup.filter _)).mpr fun entry => ?_
  rw [List.mem_filterMap, List.mem_filter, decide_eq_true_eq, ← new.get?_tree, ← old.get?_tree]
  constructor
  · rintro ⟨change, member, isBlob⟩
    have describes := describes_of_mem member
    cases change with
    | added path oid =>
        cases isBlob
        exact ⟨describes.2, by simp [describes.1]⟩
    | modified | deleted | renamed => cases isBlob
  · rintro ⟨newHas, oldLacks⟩
    have touches : entry.path ∈ (diffTrees old new).flatMap TreeChange.touched := by
      by_contra untouched
      rw [same_of_untouched untouched] at oldLacks
      exact oldLacks newHas
    obtain ⟨change, member, atPath⟩ := List.mem_flatMap.mp touches
    have describes := describes_of_mem member
    cases change with
    | added path oid =>
        obtain rfl := List.mem_singleton.mp atPath
        obtain rfl : oid = entry.oid := Option.some.inj (describes.2.symm.trans newHas)
        exact ⟨_, member, rfl⟩
    | modified | deleted | renamed => exact absurd (additions _ member) Bool.false_ne_true

theorem entries_append_added (survives : old.entries ⊆ new.entries)
    (additions : ∀ change ∈ diffTrees old new, change.isAddition = true) :
    (old.entries ++ (diffTrees old new).filterMap addedBlob?).Perm new.entries := by
  have kept : (new.entries.filter fun entry => entry ∈ old.entries).Perm old.entries := by
    refine (List.perm_ext_iff_of_nodup (new.nodup.filter _) old.nodup).mpr fun entry => ?_
    rw [List.mem_filter, decide_eq_true_eq]
    exact ⟨fun member => member.2, fun member => ⟨survives member, member⟩⟩
  have split := List.filter_append_perm (fun entry => decide (entry ∈ old.entries)) new.entries
  simp only [← decide_not] at split
  exact (kept.symm.append (addedBlobs_perm additions)).trans split

theorem cachedSourcesAgree_iff {cached : List TreeEntry} {changes : List TreeChange} :
    cachedSourcesAgree cached changes new = true ↔
      (cached ++ changes.filterMap addedBlob?).Perm new.entries := by
  rw [cachedSourcesAgree, decide_eq_true_eq]
  exact treeOf_agrees_iff

theorem additions_iff_survives : (∀ change ∈ diffTrees old new, change.isAddition = true) ↔
    ∀ entry ∈ old.entries, entry ∈ new.entries := by
  constructor
  · intro additions entry member
    exact new.get?_tree.mp (survives_of_additions additions (old.get?_tree.mpr member))
  · intro survives change member
    refine isAddition_of_survives (fun path oid oldHas => ?_) (describes_of_mem member)
    exact new.get?_tree.mpr (survives _ (old.get?_tree.mp oldHas))

end Additions

/-- A tree is read incrementally exactly when the indexed tree is there and survives in
it, the cache holds the blobs of the indexed tree, and the impact is proven.  Then the
cached and the added blobs are those of the tree. -/
theorem incremental_iff (indexed : Option TreeListing) (head : TreeListing)
    (cached : List TreeEntry) (impactProven : Bool) :
    (planTreeChange indexed head cached impactProven = .incremental ↔
      ∃ old, indexed = some old ∧ (∀ entry ∈ old.entries, entry ∈ head.entries) ∧
        cached.Perm old.entries ∧ impactProven = true) ∧
    ∀ old, indexed = some old →
      planTreeChange indexed head cached impactProven = .incremental →
      (cached ++ (diffTrees old head).filterMap addedBlob?).Perm head.entries := by
  cases indexed with
  | none => simp [planTreeChange]
  | some old =>
      rw [planTreeChange]
      by_cases additions : ∀ change ∈ diffTrees old head, change.isAddition = true
      · have survives := additions_iff_survives.mp additions
        have passed : appendProtocolBypassed (diffTrees old head) = false := by
          simpa [appendProtocolBypassed] using additions
        have whole := entries_append_added survives additions
        have reads : cached.Perm old.entries →
            (cached ++ (diffTrees old head).filterMap addedBlob?).Perm head.entries :=
          fun same => (same.append_right _).trans whole
        have agree : cachedSourcesAgree cached (diffTrees old head) head = true ↔
            cached.Perm old.entries := by
          rw [cachedSourcesAgree_iff]
          exact ⟨fun agrees => (List.perm_append_right_iff _).mp (agrees.trans whole.symm), reads⟩
        cases agrees : cachedSourcesAgree cached (diffTrees old head) head <;>
          cases impactProven <;> simp_all
      · have bypassed : appendProtocolBypassed (diffTrees old head) = true := by
          simpa [appendProtocolBypassed] using additions
        have lost := mt additions_iff_survives.mpr additions
        simp [bypassed, lost]

end SharedContext.Index
