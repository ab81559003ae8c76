import SharedContext.GitStore.Journal

/-!
# The repository and its pending directory

The state the writer works on: the commits of the work branch, the index, the
working tree, and the pending batches outside the repository.  Git's commands
act on it the way the writer relies on: a commit is atomic, and the index and
the tree report exactly what was staged.
-/

namespace SharedContext

/-- The files of a commit, an index or a working tree. -/
abbrev Tree := BTreeMap RepositoryPath Bytes

/-- A commit of the work branch.  Its message names the batch it appends. -/
structure Commit where
  tree : Tree
  batchId : Option BatchId

/-- A pending directory: the journal and its payload files. -/
structure PendingDir where
  journal : Journal
  payloads : BTreeMap Nat Bytes

structure Store where
  /-- The commits before `HEAD`, oldest first. -/
  history : List Commit
  head : Commit
  index : Tree
  worktree : Tree
  pending : BTreeMap BatchId PendingDir

/-- Status letters of `git diff --name-status` without renames. -/
inductive ChangeStatus
  | added
  | modified
  | deleted
  deriving DecidableEq, Repr

namespace Tree

/-- Replace the listed paths by their state in another tree. -/
def overlay (base source : Tree) (paths : Finset RepositoryPath) : Tree :=
  .ofKeys (base.keys ∪ source.keys) fun path =>
    if path ∈ paths then source.get? path else base.get? path

@[simp]
theorem get?_overlay (base source : Tree) (paths : Finset RepositoryPath)
    (path : RepositoryPath) :
    (overlay base source paths).get? path =
      if path ∈ paths then source.get? path else base.get? path := by
  rw [overlay, BTreeMap.get?_ofKeys]
  split
  · rfl
  · rename_i absent
    rw [Finset.mem_union, not_or] at absent
    rw [BTreeMap.not_mem_keys_iff.mp absent.1, BTreeMap.not_mem_keys_iff.mp absent.2, ite_self]

def status (before after : Tree) (path : RepositoryPath) : Option ChangeStatus :=
  match before.get? path, after.get? path with
  | none, none => none
  | none, some _ => some .added
  | some _, none => some .deleted
  | some old, some new => if old = new then none else some .modified

def diff (before after : Tree) : BTreeMap RepositoryPath ChangeStatus :=
  .ofKeys (before.keys ∪ after.keys) (status before after)

@[simp]
theorem get?_diff (before after : Tree) (path : RepositoryPath) :
    (diff before after).get? path = status before after path := by
  rw [diff, BTreeMap.get?_ofKeys]
  split
  · rfl
  · rename_i absent
    rw [Finset.mem_union, not_or] at absent
    rw [status, BTreeMap.not_mem_keys_iff.mp absent.1, BTreeMap.not_mem_keys_iff.mp absent.2]

end Tree

/-- A failure of the `git` program. -/
def gitError (message : String) : Error :=
  ⟨.external, message⟩

namespace Store

variable (store : Store)

def commits : List Commit :=
  store.history ++ [store.head]

def headOid : CommitOid :=
  store.history.length

def headFile (path : RepositoryPath) : Option Bytes :=
  store.head.tree.get? path

def fileAt (revision : CommitOid) (path : RepositoryPath) : Option Bytes :=
  store.commits[revision]?.bind fun commit => commit.tree.get? path

/-- The work branch is linear, so every commit of it is an ancestor of `HEAD`. -/
def isAncestor (ancestor : CommitOid) : Result Bool :=
  if ancestor < store.commits.length then pure true
  else throw (gitError "git merge-base failed: not a valid commit name")

def indexFile (path : RepositoryPath) : Option Bytes :=
  store.index.get? path

/-- The working tree as `git diff HEAD` sees it: without untracked files. -/
def tracked : Tree :=
  store.worktree.filter fun path _ => path ∈ store.index.keys

/-- `git diff --name-status HEAD` under the managed roots. -/
def changedFromHead : BTreeMap RepositoryPath ChangeStatus :=
  (Tree.diff store.head.tree store.tracked).filter fun path _ => path.isManaged = true

/-- `git diff --cached --name-status HEAD`. -/
def stagedFromHead : BTreeMap RepositoryPath ChangeStatus :=
  Tree.diff store.head.tree store.index

/-- `git add`. -/
def stagePaths (paths : Finset RepositoryPath) : Result Store := do
  Result.require (paths ⊆ store.worktree.keys ∪ store.index.keys)
    (gitError "git exited with 128: pathspec did not match any files")
  pure { store with index := Tree.overlay store.index store.worktree paths }

/-- `git commit --only`: the listed paths as they are in the working tree. -/
def commitPaths (batchId : BatchId) (paths : Finset RepositoryPath) : Result Store := do
  let tree := Tree.overlay store.head.tree store.worktree paths
  Result.require (paths ≠ ∅)
    (gitError "git exited with 128: No paths with --include/--only does not make sense.")
  Result.require (paths ⊆ store.index.keys)
    (gitError "git exited with 1: pathspec did not match any file(s) known to git")
  Result.require (tree ≠ store.head.tree) (gitError "git exited with 1")
  pure
    { store with
      history := store.commits
      head := ⟨tree, some batchId⟩
      index := Tree.overlay store.index store.worktree paths }

/-- Create a file that does not exist yet, with its directories. -/
def writeNew (path : RepositoryPath) (bytes : Bytes) : Result Store := do
  Result.require (path ∉ store.worktree.keys) ⟨.io, "create new file: file exists"⟩
  pure { store with worktree := store.worktree.insert path bytes }

variable {store}

theorem stagePaths_eq_ok {paths : Finset RepositoryPath} {next : Store} :
    store.stagePaths paths = .ok next ↔
      paths ⊆ store.worktree.keys ∪ store.index.keys ∧
        { store with index := Tree.overlay store.index store.worktree paths } = next := by
  simp [stagePaths, pure, Except.pure]

theorem commitPaths_eq_ok {batchId : BatchId} {paths : Finset RepositoryPath} {next : Store} :
    store.commitPaths batchId paths = .ok next ↔
      paths ≠ ∅ ∧ paths ⊆ store.index.keys ∧
        Tree.overlay store.head.tree store.worktree paths ≠ store.head.tree ∧
        { store with
          history := store.commits
          head := ⟨Tree.overlay store.head.tree store.worktree paths, some batchId⟩
          index := Tree.overlay store.index store.worktree paths } = next := by
  simp [commitPaths, pure, Except.pure]

theorem writeNew_eq_ok {path : RepositoryPath} {bytes : Bytes} {next : Store} :
    store.writeNew path bytes = .ok next ↔
      path ∉ store.worktree.keys ∧
        { store with worktree := store.worktree.insert path bytes } = next := by
  simp [writeNew, pure, Except.pure]

end Store

end SharedContext
