import SharedContext.Installer.KnowledgeSync

/-!
# Safety of knowledge sync

Whatever the surroundings answer, a sync ends with the original head or with a
validated descendant of it, and it pushes nothing that was not validated.
Only a rollback that fails itself can leave another head.
-/

namespace SharedContext.Installer

open Interruptible

variable {ι : Type} {graph : CommitGraph ι} {α β : Type}

/-! ### Rules for programs over the world -/

/-- The program ends in `after` or refuses in `refused`. -/
def Runs (before : SyncWorld ι → Prop) (program : Sync ι α) (after : α → SyncWorld ι → Prop)
    (refused : SyncWorld ι → Prop) : Prop :=
  Ensures before program after (fun _ => refused) fun _ => False

section Rules

variable {before : SyncWorld ι → Prop} {program : Sync ι α} {after : α → SyncWorld ι → Prop}
  {refused : SyncWorld ι → Prop}

theorem runs_bind {next : α → Sync ι β} {last : β → SyncWorld ι → Prop}
    (middle : α → SyncWorld ι → Prop) (first : Runs before program middle refused)
    (rest : ∀ result, Runs (middle result) (next result) last refused) :
    Runs before (program >>= next) last refused :=
  ensures_bind middle first rest

theorem runs_pure {result : α} (holds : ∀ world, before world → after result world) :
    Runs before (pure result : Sync ι α) after refused :=
  ensures_pure holds

theorem runs_refuse {error : Error} (holds : ∀ world, before world → refused world) :
    Runs before (refuse error : Sync ι α) after refused :=
  ensures_refuse holds

theorem runs_handle {handler : Error → Sync ι α} (middle : SyncWorld ι → Prop)
    (tried : Runs before program after middle)
    (handled : ∀ error, Runs middle (handler error) after refused) :
    Runs before (handle program handler) after refused :=
  ensures_handle (fun _ => middle) tried handled

theorem Runs.weaken {before' : SyncWorld ι → Prop} {after' : α → SyncWorld ι → Prop}
    {refused' : SyncWorld ι → Prop} (runs : Runs before program after refused)
    (start : ∀ world, before' world → before world)
    (finish : ∀ result world, after result world → after' result world)
    (refusal : ∀ world, refused world → refused' world) :
    Runs before' program after' refused' :=
  Ensures.weaken runs start finish (fun _ => refusal) fun _ => id

theorem Runs.ended (runs : Runs before program after refused) (machine : Machine (SyncWorld ι))
    (started : before machine.state) :
    (∀ result, (program machine).1 = .ok result → after result (program machine).2.state) ∧
      ∀ stop, (program machine).1 = .error stop → refused (program machine).2.state := by
  have ran := runs machine started
  rcases isRun : program machine with ⟨stop | result, final⟩
  · rw [isRun] at ran
    refine ⟨nofun, fun _ _ => ?_⟩
    cases stop with
    | crashed seam => exact seam.elim
    | refused error => exact ran
  · rw [isRun] at ran
    refine ⟨fun other isResult => ?_, nofun⟩
    cases isResult
    exact ran.1

theorem runs_require {condition : Bool} {error : Error}
    (failed : ∀ world, before world → refused world) :
    Runs before (require condition error) (fun _ world => before world ∧ condition = true)
      refused := by
  unfold require
  cases condition with
  | true => exact runs_pure fun world started => ⟨started, rfl⟩
  | false => exact runs_refuse failed

theorem runs_onlyIf {condition : Bool} {program : Sync ι Unit} {last : SyncWorld ι → Prop}
    (runs : condition = true → Runs before program (fun _ => last) refused)
    (skips : condition = false → ∀ world, before world → last world) :
    Runs before (onlyIf condition program) (fun _ => last) refused := by
  unfold onlyIf
  cases condition with
  | true => exact runs rfl
  | false => exact runs_pure (skips rfl)

end Rules

/-- Nothing changed but the clock, the remote and whether a merge is in progress. -/
structure SyncWorld.Quietly (world next : SyncWorld ι) : Prop where
  head : next.head = world.head
  tracking : next.tracking = world.tracking
  log : next.log = world.log
  remotes : world.remotes ⊆ next.remotes

/-- A property that survives such a change. -/
def Stable (property : SyncWorld ι → Prop) : Prop :=
  ∀ world next, world.Quietly next → property world → property next

theorem SyncWorld.quietly_tick (world : SyncWorld ι) : world.Quietly world.tick :=
  ⟨rfl, rfl, rfl, fun _ => id⟩

section Commands

variable {surroundings : Surroundings graph} {before : SyncWorld ι → Prop}
  (stable : Stable before) {context : String}
include stable

theorem runs_look {read : SyncWorld ι → Option α} :
    Runs before (Git.look surroundings context read)
      (fun result world => before world ∧
        ∃ earlier : SyncWorld ι, earlier.Quietly world ∧ read earlier = some result) before := by
  refine ensures_act fun world started => ?_
  have ticked := stable _ _ world.quietly_tick started
  by_cases answers : (surroundings.runs world.clock && surroundings.succeeds world.clock) = true
  · rw [if_pos answers]
    cases isRead : read world with
    | none => exact ticked
    | some result => exact ⟨ticked, world, world.quietly_tick, isRead⟩
  · rw [if_neg answers]
    exact ticked

theorem runs_status :
    Runs before (Git.status surroundings context) (fun _ => before) before :=
  (runs_look stable).weaken (fun _ => id) (fun _ _ => And.left) fun _ => id

theorem runs_askStore {answer : Nat → Result α} :
    Runs before (askStore answer) (fun _ => before) before := by
  refine ensures_act fun world started => ?_
  have ticked := stable _ _ world.quietly_tick started
  cases answer world.clock with
  | error => exact ticked
  | ok => exact ticked

theorem runs_mergeHead :
    Runs before (Git.mergeHead surroundings context) (fun _ => before) before := by
  refine ensures_act fun world started => ?_
  have ticked := stable _ _ world.quietly_tick started
  cases surroundings.runs world.clock <;> exact ticked

theorem runs_change (after : SyncWorld ι → Prop) {run fail : SyncWorld ι → SyncWorld ι}
    (changed : ∀ world, before world → after (run world).tick)
    (unchanged : ∀ world, before world → before (fail world).tick) :
    Runs before (Git.change surroundings context run fail)
      (fun succeeded world => if succeeded then after world else before world) before := by
  refine ensures_act fun world started => ?_
  cases surroundings.runs world.clock with
  | false => exact stable _ _ world.quietly_tick started
  | true =>
      cases surroundings.succeeds world.clock with
      | true => exact changed world started
      | false => exact unchanged world started

theorem runs_network {run : Nat → SyncWorld ι → α × SyncWorld ι}
    {after : α → SyncWorld ι → Prop}
    (ran : ∀ now world, before world → world.remote ∈ world.remotes →
      after (run now world).1 (run now world).2) :
    Runs before (Git.network surroundings context run) after before := by
  refine ensures_act fun world started => ?_
  let seen : SyncWorld ι :=
    { world.tick with
      remote := surroundings.others world.clock world.remote
      remotes := surroundings.others world.clock world.remote :: world.remotes }
  have quiet : world.Quietly seen := ⟨rfl, rfl, rfl, List.subset_cons_self _ _⟩
  have holds := stable _ _ quiet started
  by_cases answers : surroundings.runs world.clock = true
  · simp only [if_pos answers]
    exact ran world.clock seen holds List.mem_cons_self
  · simp only [if_neg answers]
    exact holds

theorem runs_lsRemote :
    Runs before (Git.lsRemote surroundings context) (fun _ => before) before :=
  runs_network stable fun _ _ started _ => started

theorem runs_fetch (after : SyncWorld ι → Prop) {branch : String}
    (fetched : ∀ (world : SyncWorld ι) head, before world →
      (∃ remote ∈ world.remotes, remote branch = some head) →
        after { world with
          tracking := Function.update world.tracking branch (some head)
          log := .fetched branch head :: world.log }) :
    Runs before (Git.fetch surroundings branch context)
      (fun succeeded world => if succeeded then after world else before world) before := by
  refine runs_network stable fun now world started isRemote => ?_
  cases found : world.remote branch with
  | none => exact started
  | some head =>
      cases surroundings.succeeds now with
      | false => exact started
      | true => exact fetched world head started ⟨_, isRemote, found⟩

theorem runs_push (after : SyncWorld ι → Prop) {branch : String}
    (pushed : ∀ (world : SyncWorld ι) remote, before world →
      remote branch = some world.head →
        after { world with
          remote := remote
          remotes := remote :: world.remotes
          log := .pushed world.head :: world.log }) :
    Runs before (Git.push surroundings branch context)
      (fun succeeded world => if succeeded then after world else before world) before := by
  refine runs_network stable fun now world started _ => ?_
  cases surroundings.succeeds now with
  | false => exact started
  | true => exact pushed world _ started (Function.update_self _ _ _)

end Commands

/-! ### What holds along a sync -/

/-- No merge failed and no validation over the original head was rejected. -/
def Quiet (original : ι) (log : List (SyncEvent ι)) : Prop :=
  .mergeFailed ∉ log ∧ ∀ head, .rejected (some original) head ∉ log

/-- Every pushed head had been validated over the original head before; the log
lists the newest event first. -/
def PushesValidated (original : ι) : List (SyncEvent ι) → Prop
  | [] => True
  | event :: earlier =>
      (∀ head, event = .pushed head → .validated (some original) head ∈ earlier) ∧
        PushesValidated original earlier

/-- What holds at every point of a sync, whatever happened before. -/
structure Sound (graph : CommitGraph ι) (original : ι) (branches : SyncBranches)
    (world : SyncWorld ι) : Prop where
  contains : graph.Contains world.head original
  published : PushesValidated original world.log
  fetched : ∀ head, .fetched branches.defaultBranch head ∈ world.log →
    world.tracking branches.defaultBranch = some head
  observed : ∀ head, .fetched branches.workBranch head ∈ world.log ∨
    .pushed head ∈ world.log → ∃ remote ∈ world.remotes, remote branches.workBranch = some head

/-- The sync has not merged anything yet. -/
def BeforeMerge (graph : CommitGraph ι) (original : ι) (branches : SyncBranches)
    (world : SyncWorld ι) : Prop :=
  Sound graph original branches world ∧ world.head = original ∧ Quiet original world.log ∧
    ∀ head, .fetched branches.defaultBranch head ∉ world.log

/-- The default branch is fetched, and nothing went wrong so far. -/
def Merging (graph : CommitGraph ι) (original : ι) (branches : SyncBranches)
    (world : SyncWorld ι) : Prop :=
  Sound graph original branches world ∧ Quiet original world.log ∧
    ∃ base, .fetched branches.defaultBranch base ∈ world.log

def Merged (graph : CommitGraph ι) (original : ι) (branches : SyncBranches)
    (world : SyncWorld ι) : Prop :=
  Merging graph original branches world ∧ ∀ base,
    world.tracking branches.defaultBranch = some base → graph.Contains world.head base

def Validated (graph : CommitGraph ι) (original : ι) (branches : SyncBranches)
    (world : SyncWorld ι) : Prop :=
  Merged graph original branches world ∧
    .validated (some original) world.head ∈ world.log

/-- The original head is back, unless the rollback failed itself. -/
def Restored (graph : CommitGraph ι) (original : ι) (branches : SyncBranches)
    (world : SyncWorld ι) : Prop :=
  Sound graph original branches world ∧ (.unrestored ∈ world.log ∨ world.head = original)

structure Outcome (graph : CommitGraph ι) (original : ι) (world : SyncWorld ι) : Prop where
  published : PushesValidated original world.log
  head : .unrestored ∈ world.log ∨ world.head = original ∨
    (graph.Contains world.head original ∧ .validated (some original) world.head ∈ world.log ∧
      Quiet original world.log)

section Phases

variable {original : ι} {branches : SyncBranches}

theorem stable_sound : Stable (Sound graph original branches) := by
  rintro world next ⟨headEq, trackingEq, logEq, contained⟩ sound
  constructor
  · rw [headEq]
    exact sound.contains
  · rw [logEq]
    exact sound.published
  · rw [logEq, trackingEq]
    exact sound.fetched
  · rw [logEq]
    intro head logged
    obtain ⟨remote, isRemote, holds⟩ := sound.observed head logged
    exact ⟨remote, contained isRemote, holds⟩

theorem stable_beforeMerge : Stable (BeforeMerge graph original branches) := by
  rintro world next quiet ⟨sound, isOriginal, logged⟩
  refine ⟨stable_sound world next quiet sound, ?_, ?_⟩
  · rw [quiet.head, isOriginal]
  · rw [quiet.log]
    exact logged

theorem stable_merging : Stable (Merging graph original branches) := by
  rintro world next quiet ⟨sound, quietLog, fetched⟩
  refine ⟨stable_sound world next quiet sound, ?_, ?_⟩
  · rw [quiet.log]
    exact quietLog
  · rw [quiet.log]
    exact fetched

theorem stable_merged : Stable (Merged graph original branches) := by
  rintro world next quiet ⟨merging, contains⟩
  refine ⟨stable_merging world next quiet merging, ?_⟩
  rw [quiet.head, quiet.tracking]
  exact contains

theorem stable_validated : Stable (Validated graph original branches) := by
  rintro world next quiet ⟨merged, validated⟩
  refine ⟨stable_merged world next quiet merged, ?_⟩
  rw [quiet.head, quiet.log]
  exact validated

/-- An event that is neither a fetch nor a push. -/
def SyncEvent.isLocal : SyncEvent ι → Bool
  | .fetched .. | .pushed _ => false
  | _ => true

theorem Sound.note {world : SyncWorld ι} (sound : Sound graph original branches world)
    {event : SyncEvent ι} (isLocal : event.isLocal = true) :
    Sound graph original branches (world.note event) := by
  have older : ∀ other : SyncEvent ι, other.isLocal = false → other ∈ (world.note event).log →
      other ∈ world.log := by
    intro other notLocal member
    rcases List.mem_cons.mp member with rfl | member
    · rw [isLocal] at notLocal
      cases notLocal
    · exact member
  constructor
  · exact sound.contains
  · refine ⟨fun head isPushed => ?_, sound.published⟩
    rw [isPushed] at isLocal
    cases isLocal
  · intro head fetched
    exact sound.fetched head (older _ rfl fetched)
  · rintro head (fetched | pushed)
    · exact sound.observed head (.inl (older _ rfl fetched))
    · exact sound.observed head (.inr (older _ rfl pushed))

theorem Quiet.note {log : List (SyncEvent ι)} (quiet : Quiet original log) {event : SyncEvent ι}
    (notFailed : event ≠ .mergeFailed) (notRejected : ∀ head, event ≠ .rejected (some original) head) :
    Quiet original (event :: log) := by
  constructor
  · intro failed
    rcases List.mem_cons.mp failed with same | failed
    · exact notFailed same.symm
    · exact quiet.1 failed
  · intro head rejected
    rcases List.mem_cons.mp rejected with same | rejected
    · exact notRejected head same.symm
    · exact quiet.2 head rejected

theorem Sound.withHead {world : SyncWorld ι} (sound : Sound graph original branches world)
    {head : ι} (contains : graph.Contains head original) :
    Sound graph original branches { world with head := head } :=
  ⟨contains, sound.published, sound.fetched, sound.observed⟩

theorem Restored.outcome {world : SyncWorld ι} (restored : Restored graph original branches world) :
    Outcome graph original world :=
  ⟨restored.1.published, restored.2.imp_right .inl⟩

theorem BeforeMerge.outcome {world : SyncWorld ι}
    (beforeMerge : BeforeMerge graph original branches world) : Outcome graph original world :=
  ⟨beforeMerge.1.published, .inr (.inl beforeMerge.2.1)⟩

theorem Validated.outcome {world : SyncWorld ι}
    (validated : Validated graph original branches world) : Outcome graph original world :=
  ⟨validated.1.1.1.published,
    .inr (.inr ⟨validated.1.1.1.contains, validated.2, validated.1.1.2.1⟩)⟩

end Phases

end SharedContext.Installer
