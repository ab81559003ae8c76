import SharedContext.Library.BTreeMap

/-!
# Walking a commit graph

A history is listed newest first, so every commit comes before its parents.  The
walk is the one `git log` makes when it is limited to some paths: a merge with
the same files as one of its parents is followed to that parent only, and a merge
shows no changes of its own.
-/

namespace SharedContext

variable {ι π β : Type*}

/-- A commit with its files under the paths of the walk. -/
structure HistoryCommit (ι π β : Type*) where
  oid : ι
  time : Int
  parents : List ι
  files : BTreeMap π β
  deriving DecidableEq

/-- Every commit has its own identity, and its parents are listed after it. -/
def Newest : List (HistoryCommit ι π β) → Prop
  | [] => True
  | commit :: older =>
      (∀ parent ∈ commit.parents, ∃ other ∈ older, other.oid = parent) ∧
        (∀ other ∈ older, other.oid ≠ commit.oid) ∧ Newest older

/-- A finite commit graph, newest commit first. -/
structure History (ι π β : Type*) where
  commits : List (HistoryCommit ι π β)
  newest : Newest commits

namespace Newest

/-- The identity determines the commit. -/
theorem eq_of_oid {commits : List (HistoryCommit ι π β)} (newest : Newest commits)
    {first second : HistoryCommit ι π β} (firstMem : first ∈ commits)
    (secondMem : second ∈ commits) (sameOid : first.oid = second.oid) : first = second := by
  induction commits with
  | nil => exact absurd firstMem List.not_mem_nil
  | cons commit older ih =>
      obtain ⟨_, isNew, olderNewest⟩ := newest
      rcases List.mem_cons.mp firstMem with rfl | firstOlder
      · rcases List.mem_cons.mp secondMem with rfl | secondOlder
        · rfl
        · exact absurd sameOid.symm (isNew second secondOlder)
      · rcases List.mem_cons.mp secondMem with rfl | secondOlder
        · exact absurd sameOid (isNew first firstOlder)
        · exact ih olderNewest firstOlder secondOlder

end Newest

namespace History

variable [DecidableEq ι] (history : History ι π β)

/-- The commit with an identity. -/
def find? (oid : ι) : Option (HistoryCommit ι π β) :=
  history.commits.find? fun commit => commit.oid = oid

def filesAt (oid : ι) : BTreeMap π β :=
  ((history.find? oid).map (·.files)).getD .empty

variable {history}

theorem find?_eq_some {oid : ι} {commit : HistoryCommit ι π β} :
    history.find? oid = some commit ↔ commit ∈ history.commits ∧ commit.oid = oid := by
  constructor
  · intro found
    exact ⟨List.mem_of_find?_eq_some found, by simpa using List.find?_some found⟩
  · intro ⟨commitMem, oidEq⟩
    cases found : history.find? oid with
    | none =>
        have unmatched := List.find?_eq_none.mp found commit commitMem
        exact absurd oidEq (by simpa using unmatched)
    | some other =>
        have otherMem := List.mem_of_find?_eq_some found
        have otherOid : other.oid = oid := by simpa using List.find?_some found
        rw [history.newest.eq_of_oid otherMem commitMem (otherOid.trans oidEq.symm)]

theorem filesAt_oid {commit : HistoryCommit ι π β} (commitMem : commit ∈ history.commits) :
    history.filesAt commit.oid = commit.files := by
  rw [filesAt, find?_eq_some.mpr ⟨commitMem, rfl⟩]
  rfl

variable (history)

/-- The commit has a path that none of its parents has. -/
def Adds (commit : HistoryCommit ι π β) (path : π) : Prop :=
  path ∈ commit.files.keys ∧ ∀ parent ∈ commit.parents, path ∉ (history.filesAt parent).keys

instance [DecidableEq π] (commit : HistoryCommit ι π β) (path : π) :
    Decidable (history.Adds commit path) := by
  unfold Adds
  infer_instance

section Walk

variable [DecidableEq π] [DecidableEq β]

def followed (commit : HistoryCommit ι π β) : List ι :=
  match commit.parents with
  | [] => []
  | [parent] => [parent]
  | parents =>
      match parents.find? fun parent => history.filesAt parent = commit.files with
      | some same => [same]
      | none => parents

/-- The commits of a list that the walk visits, given those it is to visit next. -/
def visit (next : List ι) : List (HistoryCommit ι π β) → List (HistoryCommit ι π β)
  | [] => []
  | commit :: older =>
      if commit.oid ∈ next then
        commit :: visit (next ++ history.followed commit) older
      else
        visit next older

/-- The commits the walk from a head visits, newest first. -/
def walk (head : ι) : List (HistoryCommit ι π β) :=
  history.visit [head] history.commits

def added (commit : HistoryCommit ι π β) : Finset π :=
  match commit.parents with
  | [] => commit.files.keys
  | [parent] => commit.files.keys \ (history.filesAt parent).keys
  | _ => ∅

variable {history}

theorem visit_subset {next : List ι} {commits : List (HistoryCommit ι π β)} :
    history.visit next commits ⊆ commits := by
  induction commits generalizing next with
  | nil => exact fun _ visited => visited
  | cons commit older ih =>
      intro visited isVisited
      unfold visit at isVisited
      split at isVisited
      · rcases List.mem_cons.mp isVisited with rfl | fromOlder
        · exact List.mem_cons_self
        · exact List.mem_cons_of_mem _ (ih fromOlder)
      · exact List.mem_cons_of_mem _ (ih isVisited)

theorem mem_commits_of_mem_walk {head : ι} {commit : HistoryCommit ι π β}
    (visited : commit ∈ history.walk head) : commit ∈ history.commits :=
  visit_subset visited

omit [DecidableEq β] in
/-- A commit that shows a path adds it, and is no merge. -/
theorem mem_added {commit : HistoryCommit ι π β} {path : π} :
    path ∈ history.added commit ↔ commit.parents.length ≤ 1 ∧ history.Adds commit path := by
  unfold added Adds
  split
  case h_1 isRoot => simp [isRoot]
  case h_2 parent isChild => simp [isChild]
  case h_3 notRoot notChild =>
    have isMerge : ¬ commit.parents.length ≤ 1 := by
      intro short
      match parentsEq : commit.parents with
      | [] => exact notRoot parentsEq
      | [parent] => exact notChild parent parentsEq
      | first :: second :: rest =>
          rw [parentsEq] at short
          simp at short
    simp [isMerge]

theorem followed_subset {commit : HistoryCommit ι π β} {parent : ι}
    (isFollowed : parent ∈ history.followed commit) : parent ∈ commit.parents := by
  unfold followed at isFollowed
  split at isFollowed
  case h_1 => exact absurd isFollowed List.not_mem_nil
  case h_2 only isChild => exact isChild ▸ isFollowed
  case h_3 =>
    split at isFollowed
    case h_1 same found =>
      rw [List.mem_singleton.mp isFollowed]
      exact List.mem_of_find?_eq_some found
    case h_2 => exact isFollowed

/-- A path that a commit has but does not add is in a parent the walk follows. -/
theorem exists_followed {commit : HistoryCommit ι π β} {path : π}
    (pathMem : path ∈ commit.files.keys) (notAdded : ¬ history.Adds commit path) :
    ∃ parent ∈ history.followed commit, path ∈ (history.filesAt parent).keys := by
  have inParent : ∃ parent ∈ commit.parents, path ∈ (history.filesAt parent).keys := by
    by_contra absent
    push Not at absent
    exact notAdded ⟨pathMem, absent⟩
  obtain ⟨parent, parentMem, inFiles⟩ := inParent
  unfold followed
  split
  case h_1 isRoot =>
    rw [isRoot] at parentMem
    exact absurd parentMem List.not_mem_nil
  case h_2 only isChild =>
    rw [isChild] at parentMem
    exact ⟨parent, parentMem, inFiles⟩
  case h_3 =>
    split
    case h_1 same found =>
      have sameFiles : history.filesAt same = commit.files := by
        simpa using List.find?_some found
      exact ⟨same, List.mem_singleton_self same, sameFiles ▸ pathMem⟩
    case h_2 => exact ⟨parent, parentMem, inFiles⟩

theorem exists_adds_of_visit {next : List ι} {commits : List (HistoryCommit ι π β)}
    (newest : Newest commits) (isListed : ∀ commit ∈ commits, commit ∈ history.commits)
    {start : HistoryCommit ι π β} (startMem : start ∈ commits) (isNext : start.oid ∈ next)
    {path : π} (pathMem : path ∈ start.files.keys) :
    ∃ commit ∈ history.visit next commits, history.Adds commit path := by
  induction commits generalizing next start with
  | nil => exact absurd startMem List.not_mem_nil
  | cons commit older ih =>
      obtain ⟨parentsOlder, _, olderNewest⟩ := newest
      have olderListed : ∀ other ∈ older, other ∈ history.commits :=
        fun other otherMem => isListed other (List.mem_cons_of_mem _ otherMem)
      unfold visit
      rcases List.mem_cons.mp startMem with rfl | startOlder
      · rw [if_pos isNext]
        by_cases adds : history.Adds start path
        · exact ⟨start, List.mem_cons_self, adds⟩
        · obtain ⟨parent, isFollowed, inParent⟩ := exists_followed pathMem adds
          obtain ⟨other, otherMem, otherOid⟩ := parentsOlder parent (followed_subset isFollowed)
          rw [← otherOid, filesAt_oid (olderListed other otherMem)] at inParent
          obtain ⟨found, foundMem, foundAdds⟩ := ih olderNewest olderListed otherMem
            (List.mem_append_right next (otherOid ▸ isFollowed)) inParent
          exact ⟨found, List.mem_cons_of_mem _ foundMem, foundAdds⟩
      · split
        · obtain ⟨found, foundMem, foundAdds⟩ := ih olderNewest olderListed startOlder
            (List.mem_append_left _ isNext) pathMem
          exact ⟨found, List.mem_cons_of_mem _ foundMem, foundAdds⟩
        · exact ih olderNewest olderListed startOlder isNext pathMem

theorem exists_adds_of_walk {head : ι} {path : π}
    (pathMem : path ∈ (history.filesAt head).keys) :
    ∃ commit ∈ history.walk head, history.Adds commit path := by
  cases found : history.find? head with
  | none =>
      rw [filesAt, found] at pathMem
      exact absurd pathMem (BTreeMap.not_mem_keys_iff.mpr (BTreeMap.get?_empty path))
  | some start =>
      obtain ⟨startMem, startOid⟩ := find?_eq_some.mp found
      rw [← startOid, filesAt_oid startMem] at pathMem
      exact exists_adds_of_visit history.newest (fun _ isMem => isMem) startMem
        (List.mem_singleton.mpr startOid) pathMem

end Walk

end History

end SharedContext
