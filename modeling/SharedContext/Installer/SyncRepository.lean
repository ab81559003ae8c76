import Mathlib.Logic.Function.Basic
import Mathlib.Logic.Relation
import SharedContext.Domain.Validation
import SharedContext.Library.Interruptible

/-!
# The repository of a knowledge sync

A local clone, its remote, and the answers that Git and the other
installations give while a sync runs.  Every command takes one tick of a clock
and asks the surroundings what happens at that tick.
-/

namespace SharedContext.Installer

/-! ### Commits -/

/-- An object ID determines its commit, and so its parents. -/
structure CommitGraph (ι : Type) where
  parents : ι → List ι

/-- The history of a head contains a commit. -/
def CommitGraph.Contains {ι : Type} (graph : CommitGraph ι) (head commit : ι) : Prop :=
  Relation.ReflTransGen (fun child parent => parent ∈ graph.parents child) head commit

variable {ι : Type} {graph : CommitGraph ι}

@[refl]
theorem CommitGraph.contains_refl (head : ι) : graph.Contains head head :=
  Relation.ReflTransGen.refl

theorem CommitGraph.Contains.trans {head middle commit : ι} (first : graph.Contains head middle)
    (second : graph.Contains middle commit) : graph.Contains head commit :=
  Relation.ReflTransGen.trans first second

/-! ### The surroundings -/

abbrev Branches (ι : Type) := String → Option ι

/-- What happens at each tick.  All answers are free, except that a merge
contains both sides. -/
structure Surroundings (graph : CommitGraph ι) where
  /-- What other installations leave on the remote. -/
  others : Nat → Branches ι → Branches ι
  /-- Whether the command can be run to its end. -/
  runs : Nat → Bool
  /-- Whether the command that ran succeeds. -/
  succeeds : Nat → Bool
  /-- The exit code of `git ls-remote`. -/
  probe : Nat → Option Int
  /-- Whether a merge that failed leaves a merge in progress. -/
  leavesMerge : Nat → Bool
  /-- Whether `git status` shows a clean worktree. -/
  clean : Nat → Bool
  /-- The answer of a check of the store. -/
  storeCheck : Nat → Result Unit
  /-- Whether the projection of the store quarantines Events. -/
  quarantines : Nat → Result Bool
  /-- The head after a merge. -/
  merged : Nat → ι → ι → ι
  mergedLaw : ∀ now head other, graph.Contains (merged now head other) head ∧
    graph.Contains (merged now head other) other
  /-- The counts of `git rev-list --left-right --count`. -/
  divergence : ι → ι → Nat × Nat

/-! ### The clone and its log -/

/-- What a sync did, for the statements about a run. -/
inductive SyncEvent (ι : Type)
  | fetched (branch : String) (head : ι)
  | mergeFailed
  | validated (base : Option ι) (head : ι)
  | rejected (base : Option ι) (head : ι)
  | pushed (head : ι)
  | unrestored
  deriving DecidableEq

/-- The Knowledge Store repository on its work branch. -/
structure Clone (ι : Type) where
  head : ι
  currentBranch : String
  originDigest : String
  /-- The tracking refs under `refs/remotes/origin`. -/
  tracking : Branches ι
  mergeInProgress : Bool
  pendingBatches : Nat

/-- The clone, the remote and what happened so far. -/
structure SyncWorld (ι : Type) extends Clone ι where
  remote : Branches ι
  /-- What the remote branches have been since the sync began, newest first. -/
  remotes : List (Branches ι)
  clock : Nat
  log : List (SyncEvent ι)

def Clone.begin (clone : Clone ι) (remote : Branches ι) : SyncWorld ι :=
  { clone with remote := remote, remotes := [], clock := 0, log := [] }

/-- Programs over the world; nothing interrupts them. -/
abbrev Sync (ι : Type) := Interruptible Empty Error (SyncWorld ι)

namespace SyncWorld

variable (world : SyncWorld ι)

def tick : SyncWorld ι :=
  { world with clock := world.clock + 1 }

def note (event : SyncEvent ι) : SyncWorld ι :=
  { world with log := event :: world.log }

end SyncWorld

def external (message : String) : Error :=
  ⟨.external, message⟩

def invariantError (message : String) : Error :=
  ⟨.invariantViolation, message⟩

/-! ### Commands -/

namespace Git

variable (surroundings : Surroundings graph)

/-- A local command that only reads, like `git_output`. -/
def look {α : Type} (context : String) (read : SyncWorld ι → Option α) : Sync ι α :=
  Interruptible.act fun world =>
    if surroundings.runs world.clock && surroundings.succeeds world.clock then
      match read world with
      | some result => (.ok result, world.tick)
      | none => (.error (external context), world.tick)
    else (.error (external context), world.tick)

/-- A command that reaches the remote, after others may have changed it. -/
def network {α : Type} (context : String)
    (run : Nat → SyncWorld ι → α × SyncWorld ι) : Sync ι α :=
  Interruptible.act fun world =>
    let now := world.clock
    let remote := surroundings.others now world.remote
    let world := { world.tick with remote := remote, remotes := remote :: world.remotes }
    if surroundings.runs now then (.ok (run now world).1, (run now world).2)
    else (.error (external context), world)

/-- `git fetch` of one branch into its tracking ref, and whether it succeeded. -/
def fetch (branch context : String) : Sync ι Bool :=
  network surroundings context fun now world =>
    match world.remote branch with
    | some head =>
        if surroundings.succeeds now then
          (true, { world with
            tracking := Function.update world.tracking branch (some head)
            log := .fetched branch head :: world.log })
        else (false, world)
    | none => (false, world)

/-- `git ls-remote --exit-code`. -/
def lsRemote (context : String) : Sync ι (Option Int) :=
  network surroundings context fun now world => (surroundings.probe now, world)

/-- `git push` of `HEAD` to a branch. -/
def push (branch context : String) : Sync ι Bool :=
  network surroundings context fun now world =>
    if surroundings.succeeds now then
      let remote := Function.update world.remote branch (some world.head)
      (true, { world with
        remote := remote
        remotes := remote :: world.remotes
        log := .pushed world.head :: world.log })
    else (false, world)

/-- A local command that may change the clone, and whether it succeeded. -/
def change (context : String) (run : SyncWorld ι → SyncWorld ι)
    (fail : SyncWorld ι → SyncWorld ι) : Sync ι Bool :=
  Interruptible.act fun world =>
    if surroundings.runs world.clock then
      if surroundings.succeeds world.clock then (.ok true, (run world).tick)
      else (.ok false, (fail world).tick)
    else (.error (external context), world.tick)

/-- `git update-ref -d` of a tracking ref. -/
def deleteTracking (branch context : String) : Sync ι Bool :=
  change surroundings context
    (fun world => { world with tracking := Function.update world.tracking branch none }) id

/-- `git merge --no-edit` of a tracking ref; a ref that is missing cannot be merged. -/
def merge (branch context : String) : Sync ι Bool :=
  Interruptible.act fun world =>
    if surroundings.runs world.clock then
      match world.tracking branch with
      | some other =>
          if surroundings.succeeds world.clock then
            (.ok true,
              { world.tick with head := surroundings.merged world.clock world.head other })
          else
            (.ok false,
              { (world.note .mergeFailed).tick with
                mergeInProgress := surroundings.leavesMerge world.clock })
      | none => (.ok false, (world.note .mergeFailed).tick)
    else (.error (external context), world.tick)

/-- `git rev-parse -q --verify MERGE_HEAD`. -/
def mergeHead (context : String) : Sync ι Bool :=
  Interruptible.act fun world =>
    if surroundings.runs world.clock then (.ok world.mergeInProgress, world.tick)
    else (.error (external context), world.tick)

/-- Whether `git status --porcelain` prints nothing. -/
def status (context : String) : Sync ι Bool :=
  look surroundings context fun world => some (surroundings.clean world.clock)

/-- `git merge --abort`. -/
def mergeAbort (context : String) : Sync ι Bool :=
  change surroundings context (fun world => { world with mergeInProgress := false }) id

/-- `git reset --hard`. -/
def resetHard (head : ι) (context : String) : Sync ι Bool :=
  change surroundings context
    (fun world => { world with head := head, mergeInProgress := false }) id

end Git

def askStore {α : Type} (answer : Nat → Result α) : Sync ι α :=
  Interruptible.act fun world => (answer world.clock, world.tick)

end SharedContext.Installer
