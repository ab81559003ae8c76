import SharedContext.Installer.SyncSafety

/-!
# Runs of knowledge sync

Each function of the sync keeps what its phase needs, and a failure after the
first merge ends restored.  The push loop is followed by induction on the
attempts that are left.
-/

namespace SharedContext.Installer

open Interruptible

variable {ι : Type} {graph : CommitGraph ι} {surroundings : Surroundings graph}
  {original : ι} {branches : SyncBranches} {before after refused : SyncWorld ι → Prop}

/-! ### Validation -/

theorem runs_validationChecks (stable : Stable before) {base : Option ι} :
    Runs before (validationChecks surroundings base) (fun _ => before) before := by
  refine runs_bind (fun _ => before) (runs_askStore stable) fun _ => ?_
  refine runs_bind (fun _ => before) (runs_askStore stable) fun _ => ?_
  refine runs_bind (fun _ => before) ?_ fun _ => ?_
  · exact runs_onlyIf (fun _ => runs_askStore stable) fun _ _ => id
  refine runs_bind (fun _ => before) (runs_askStore stable) fun quarantines => ?_
  refine runs_bind (fun _ => before) ?_ fun _ => ?_
  · exact (runs_require fun _ => id).weaken (fun _ => id) (fun _ _ => And.left) fun _ => id
  refine runs_bind (fun _ => before) (runs_status stable) fun clean => ?_
  exact (runs_require fun _ => id).weaken (fun _ => id) (fun _ _ => And.left) fun _ => id

theorem runs_refuseNoting {event : SyncWorld ι → SyncEvent ι} {error : Error} {α : Type}
    {result : α → SyncWorld ι → Prop}
    (noted : ∀ world, before world → refused (world.note (event world))) :
    Runs before (refuseNoting event error) result refused :=
  ensures_act noted

theorem runs_validateSyncHead (stable : Stable before) {base : Option ι}
    (validates : ∀ world, before world → before (world.note (.validated base world.head)))
    (rejects : ∀ world, before world → refused (world.note (.rejected base world.head))) :
    Runs before (validateSyncHead surroundings base)
      (fun _ world => before world ∧ .validated base world.head ∈ world.log) refused := by
  refine runs_bind (fun _ => before) ?_ fun _ => ?_
  · exact runs_handle before (runs_validationChecks stable) fun _ => runs_refuseNoting rejects
  · exact ensures_act fun world started => ⟨validates world started, List.mem_cons_self⟩

/-! ### Merges and rollback -/

theorem runs_abortMergeIfNeeded (stable : Stable before) :
    Runs before (abortMergeIfNeeded surroundings) (fun _ => before) before := by
  refine runs_bind (fun _ => before) (runs_mergeHead stable) fun merging => ?_
  cases merging with
  | false => exact runs_pure fun _ => id
  | true =>
      refine runs_bind (fun _ => before) ?_ fun aborted => ?_
      · refine (runs_change stable before ?_ ?_).weaken (fun _ => id) ?_ fun _ => id
        · exact fun world started => stable world _ ⟨rfl, rfl, rfl, fun _ => id⟩ started
        · exact fun world started => stable _ _ world.quietly_tick started
        · intro succeeded world ended
          cases succeeded <;> exact ended
      · exact (runs_require fun _ => id).weaken (fun _ => id) (fun _ _ => And.left) fun _ => id

theorem runs_mergeSyncRef {branch : String} (stable : Stable before) (stableAfter : Stable after)
    (sound : ∀ world, before world → Sound graph original branches world)
    (merges : ∀ (world : SyncWorld ι) other head, before world →
      world.tracking branch = some other → graph.Contains head world.head →
        graph.Contains head other → after { world with head := head }) :
    Runs before (mergeSyncRef surroundings branch) (fun _ => after)
      (Sound graph original branches) := by
  let middle : Bool → SyncWorld ι → Prop := fun merged world =>
    if merged then after world else Sound graph original branches world
  refine runs_bind middle (ensures_act fun world started => ?_) fun merged => ?_
  · have failed : ∀ next : SyncWorld ι, next.head = world.head → next.tracking = world.tracking →
        next.log = .mergeFailed :: world.log → next.remotes = world.remotes →
          middle false next := by
      intro next headEq trackingEq logEq remotesEq
      exact stable_sound (world.note .mergeFailed) next
        ⟨headEq, trackingEq, logEq, fun remote member => remotesEq ▸ member⟩
        ((sound world started).note rfl)
    cases surroundings.runs world.clock with
    | false => exact sound _ (stable _ _ world.quietly_tick started)
    | true =>
        cases tracked : world.tracking branch with
        | none => exact failed _ rfl rfl rfl rfl
        | some other =>
            cases surroundings.succeeds world.clock with
            | false => exact failed _ rfl rfl rfl rfl
            | true =>
                obtain ⟨ofHead, ofOther⟩ :=
                  surroundings.mergedLaw world.clock world.head other
                have merged := merges world other _ started tracked ofHead ofOther
                exact stableAfter { world with head := surroundings.merged _ _ other } _
                  ⟨rfl, rfl, rfl, fun _ => id⟩ merged
  · cases merged with
    | true => exact runs_pure fun _ => id
    | false =>
        refine runs_bind (fun _ => Sound graph original branches)
          (runs_abortMergeIfNeeded stable_sound) fun _ => ?_
        exact runs_refuse fun _ => id

theorem runs_rollbackSyncHead :
    Runs (Sound graph original branches) (rollbackSyncHead surroundings original)
      (fun _ => Restored graph original branches) (Restored graph original branches) := by
  let reset : SyncWorld ι → Prop := fun world =>
    Sound graph original branches world ∧ world.head = original
  have stableReset : Stable reset := by
    rintro world next quiet ⟨sound, isOriginal⟩
    exact ⟨stable_sound world next quiet sound, quiet.head.trans isOriginal⟩
  refine runs_bind (fun _ => reset) ?_ fun _ => ?_
  · refine runs_handle (Sound graph original branches) ?_ fun error => ?_
    · refine runs_bind (fun _ => Sound graph original branches)
        (runs_abortMergeIfNeeded stable_sound) fun _ => ?_
      refine runs_bind (fun succeeded world => if succeeded then reset world
        else Sound graph original branches world) ?_ fun succeeded => ?_
      · refine runs_change stable_sound reset ?_ ?_
        · intro world sound
          exact stableReset { world with head := original } _ ⟨rfl, rfl, rfl, fun _ => id⟩
            ⟨sound.withHead (graph.contains_refl original), rfl⟩
        · exact fun world sound => stable_sound _ _ world.quietly_tick sound
      · cases succeeded with
        | true => exact runs_pure fun _ => id
        | false => exact runs_refuse fun _ => id
    · exact runs_refuseNoting fun world sound => ⟨sound.note rfl, .inl List.mem_cons_self⟩
  · refine (runs_validateSyncHead stableReset ?_ ?_).weaken (fun _ => id) ?_ fun _ => id
    · exact fun world started => ⟨started.1.note rfl, started.2⟩
    · exact fun world started => ⟨started.1.note rfl, .inr started.2⟩
    · exact fun _ world ended => ⟨ended.1.1, .inr ended.1.2⟩

theorem runs_mergeOrRollback {merges : Sync ι Unit}
    (merged : Runs before merges (fun _ => after) (Sound graph original branches)) :
    Runs before (mergeOrRollback surroundings original merges) (fun _ => after)
      (Restored graph original branches) := by
  refine runs_handle _ merged fun error => ?_
  refine runs_bind (fun _ => Restored graph original branches) runs_rollbackSyncHead fun _ => ?_
  exact runs_refuse fun _ => id

/-! ### Fetches -/

theorem Sound.fetchDefault {world : SyncWorld ι} (sound : Sound graph original branches world)
    (notFetched : ∀ head, .fetched branches.defaultBranch head ∉ world.log) (head : ι) :
    Sound graph original branches { world with
      tracking := Function.update world.tracking branches.defaultBranch (some head)
      log := .fetched branches.defaultBranch head :: world.log } := by
  constructor
  · exact sound.contains
  · exact ⟨nofun, sound.published⟩
  · intro other fetched
    rcases List.mem_cons.mp fetched with same | fetched
    · cases same
      exact Function.update_self _ _ _
    · exact absurd fetched (notFetched other)
  · rintro other (fetched | pushed)
    · rcases List.mem_cons.mp fetched with same | fetched
      · exact absurd (SyncEvent.fetched.inj same).1 branches.different
      · exact sound.observed other (.inl fetched)
    · rcases List.mem_cons.mp pushed with same | pushed
      · cases same
      · exact sound.observed other (.inr pushed)

theorem Sound.fetchWork {world : SyncWorld ι} (sound : Sound graph original branches world)
    {head : ι} (isRemote : ∃ remote ∈ world.remotes, remote branches.workBranch = some head) :
    Sound graph original branches { world with
      tracking := Function.update world.tracking branches.workBranch (some head)
      log := .fetched branches.workBranch head :: world.log } := by
  constructor
  · exact sound.contains
  · exact ⟨nofun, sound.published⟩
  · intro other fetched
    change Function.update world.tracking _ _ _ = _
    rw [Function.update_of_ne branches.different.symm]
    rcases List.mem_cons.mp fetched with same | fetched
    · exact absurd (SyncEvent.fetched.inj same).1.symm branches.different
    · exact sound.fetched other fetched
  · rintro other (fetched | pushed)
    · rcases List.mem_cons.mp fetched with same | fetched
      · cases same
        exact isRemote
      · exact sound.observed other (.inl fetched)
    · rcases List.mem_cons.mp pushed with same | pushed
      · cases same
      · exact sound.observed other (.inr pushed)

/-- The default branch is fetched and nothing merged yet. -/
def Fetched (graph : CommitGraph ι) (original : ι) (branches : SyncBranches)
    (world : SyncWorld ι) : Prop :=
  Merging graph original branches world ∧ world.head = original

theorem runs_fetchRequiredBranch :
    Runs (BeforeMerge graph original branches)
      (fetchRequiredBranch surroundings branches.defaultBranch)
      (fun _ => Fetched graph original branches) (BeforeMerge graph original branches) := by
  refine runs_bind _ (runs_fetch stable_beforeMerge (Fetched graph original branches) ?_)
    fun fetched => ?_
  · rintro world head ⟨sound, isOriginal, quiet, notFetched⟩ -
    exact ⟨⟨sound.fetchDefault notFetched head, quiet.note nofun nofun, head,
      List.mem_cons_self⟩, isOriginal⟩
  · cases fetched with
    | true => exact runs_pure fun _ => id
    | false => exact runs_refuse fun _ => id

/-- A phase that a fetch of the work branch does not disturb. -/
structure Fetchable (branches : SyncBranches) (phase : SyncWorld ι → Prop) : Prop where
  stable : Stable phase
  fetched : ∀ (world : SyncWorld ι) head, phase world →
    (∃ remote ∈ world.remotes, remote branches.workBranch = some head) →
      phase { world with
        tracking := Function.update world.tracking branches.workBranch (some head)
        log := .fetched branches.workBranch head :: world.log }
  deleted : ∀ world : SyncWorld ι, phase world →
    phase { world with tracking := Function.update world.tracking branches.workBranch none }

theorem runs_fetchOptionalWorkBranch {phase : SyncWorld ι → Prop}
    (fetchable : Fetchable branches phase) :
    Runs phase (fetchOptionalWorkBranch surroundings branches.workBranch)
      (fun result world => phase world ∧
        ∀ head, result = some head → .fetched branches.workBranch head ∈ world.log) phase := by
  let tracked : SyncWorld ι → Prop := fun world =>
    phase world ∧ ∃ head, world.tracking branches.workBranch = some head ∧
      .fetched branches.workBranch head ∈ world.log
  have stableTracked : Stable tracked := by
    rintro world next quiet ⟨started, logged⟩
    refine ⟨fetchable.stable world next quiet started, ?_⟩
    rw [quiet.tracking, quiet.log]
    exact logged
  refine runs_bind (fun _ => phase) (runs_lsRemote fetchable.stable) fun probe => ?_
  split
  · refine runs_bind _ (runs_fetch fetchable.stable tracked ?_) fun fetched => ?_
    · intro world head started isRemote
      exact ⟨fetchable.fetched world head started isRemote, head, Function.update_self _ _ _,
        List.mem_cons_self⟩
    refine runs_bind (fun _ => tracked) ?_ fun _ => ?_
    · cases fetched with
      | true => exact runs_pure fun _ => id
      | false => exact runs_refuse fun _ => id
    refine runs_bind _ ((runs_look stableTracked).weaken (fun _ => id) (fun _ _ => id)
      fun _ ended => ended.1) fun head => ?_
    refine runs_pure ?_
    rintro world ⟨⟨ended, other, isTracked, logged⟩, earlier, quiet, isRead⟩
    refine ⟨ended, fun result isResult => ?_⟩
    cases isResult
    rw [quiet.tracking, isRead] at isTracked
    cases isTracked
    exact logged
  · refine runs_bind _ (runs_change fetchable.stable phase ?_ ?_) fun removed => ?_
    · intro world started
      exact fetchable.stable _ _ (SyncWorld.quietly_tick _) (fetchable.deleted world started)
    · exact fun world started => fetchable.stable _ _ world.quietly_tick started
    refine runs_bind (fun _ => phase) ?_ fun _ => ?_
    · cases removed with
      | true => exact runs_pure fun _ => id
      | false => exact runs_refuse fun _ => id
    exact runs_pure fun _ started => ⟨started, nofun⟩
  · exact runs_refuse fun _ => id

theorem fetchable_merging : Fetchable branches (Merging graph original branches) where
  stable := stable_merging
  fetched := by
    rintro world head ⟨sound, quiet, base, logged⟩ isRemote
    exact ⟨sound.fetchWork isRemote, quiet.note nofun nofun, base,
      List.mem_cons_of_mem _ logged⟩
  deleted := by
    rintro world ⟨sound, quiet, fetched⟩
    refine ⟨⟨sound.contains, sound.published, ?_, sound.observed⟩, quiet, fetched⟩
    intro head logged
    change Function.update world.tracking _ _ _ = _
    rw [Function.update_of_ne branches.different.symm]
    exact sound.fetched head logged

theorem fetchable_fetched : Fetchable branches (Fetched graph original branches) where
  stable := fun world next quiet started =>
    ⟨stable_merging world next quiet started.1, quiet.head.trans started.2⟩
  fetched := fun world head started isRemote =>
    ⟨fetchable_merging.fetched world head started.1 isRemote, started.2⟩
  deleted := fun world started => ⟨fetchable_merging.deleted world started.1, started.2⟩

theorem fetchable_validated : Fetchable branches (Validated graph original branches) where
  stable := stable_validated
  fetched := by
    rintro world head ⟨⟨merging, contains⟩, validated⟩ isRemote
    refine ⟨⟨fetchable_merging.fetched world head merging isRemote, ?_⟩,
      List.mem_cons_of_mem _ validated⟩
    intro base isBase
    change Function.update world.tracking _ _ _ = _ at isBase
    rw [Function.update_of_ne branches.different.symm] at isBase
    exact contains base isBase
  deleted := by
    rintro world ⟨⟨merging, contains⟩, validated⟩
    refine ⟨⟨fetchable_merging.deleted world merging, ?_⟩, validated⟩
    intro base isBase
    change Function.update world.tracking _ _ _ = _ at isBase
    rw [Function.update_of_ne branches.different.symm] at isBase
    exact contains base isBase

/-! ### The two merge blocks -/

/-- What the log says stays said. -/
def Logged (known : List (SyncEvent ι) → Prop) : Prop :=
  ∀ older newer, older ⊆ newer → known older → known newer

section Merges

variable {known : List (SyncEvent ι) → Prop} (logged : Logged known)
include logged

theorem stable_logged {phase : SyncWorld ι → Prop} (stable : Stable phase) :
    Stable fun world => phase world ∧ known world.log :=
  fun world next quiet started =>
    ⟨stable world next quiet started.1, logged _ _ (quiet.log ▸ List.Subset.refl _) started.2⟩

theorem runs_validateMerged :
    Runs (fun world => Merged graph original branches world ∧ known world.log)
      (validateSyncHead surroundings (some original))
      (fun _ world => Validated graph original branches world ∧ known world.log)
      (Sound graph original branches) := by
  refine (runs_validateSyncHead (stable_logged logged stable_merged) ?_ ?_).weaken
    (fun _ => id) (fun _ world ended => ⟨⟨ended.1.1, ended.2⟩, ended.1.2⟩) fun _ => id
  · rintro world ⟨⟨⟨sound, quiet, base, fetched⟩, contains⟩, isKnown⟩
    exact ⟨⟨⟨sound.note rfl, quiet.note nofun nofun, base, List.mem_cons_of_mem _ fetched⟩,
      contains⟩, logged _ _ (List.subset_cons_self _ _) isKnown⟩
  · exact fun world merged => merged.1.1.1.note rfl

theorem runs_mergeWork {phase : SyncWorld ι → Prop} (stable : Stable phase)
    (sound : ∀ world, phase world → Sound graph original branches world)
    (grows : ∀ (world : SyncWorld ι) head, phase world → graph.Contains head world.head →
      phase { world with head := head }) {condition : Bool} :
    Runs (fun world => phase world ∧ known world.log)
      (onlyIf condition (mergeSyncRef surroundings branches.workBranch))
      (fun _ world => phase world ∧ known world.log) (Sound graph original branches) := by
  refine runs_onlyIf (fun _ => ?_) fun _ _ => id
  have stableBoth := stable_logged logged stable
  refine runs_mergeSyncRef stableBoth stableBoth (fun world started => sound world started.1) ?_
  exact fun world other head started _ ofHead _ => ⟨grows world head started.1 ofHead, started.2⟩

omit logged in
theorem merging_grows (world : SyncWorld ι) (head : ι)
    (merging : Merging graph original branches world)
    (contains : graph.Contains head world.head) :
    Merging graph original branches { world with head := head } :=
  ⟨merging.1.withHead (contains.trans merging.1.contains), merging.2⟩

omit logged in
theorem merged_grows (world : SyncWorld ι) (head : ι)
    (merged : Merged graph original branches world)
    (contains : graph.Contains head world.head) :
    Merged graph original branches { world with head := head } :=
  ⟨merging_grows world head merged.1 contains,
    fun base isBase => contains.trans (merged.2 base isBase)⟩

theorem runs_firstMerges {remoteWork : Option ι} :
    Runs (fun world => Merging graph original branches world ∧ known world.log)
      (mergeOrRollback surroundings original do
        onlyIf remoteWork.isSome (mergeSyncRef surroundings branches.workBranch)
        mergeSyncRef surroundings branches.defaultBranch
        validateSyncHead surroundings (some original))
      (fun _ world => Validated graph original branches world ∧ known world.log)
      (Restored graph original branches) := by
  refine runs_mergeOrRollback ?_
  refine runs_bind _ (runs_mergeWork logged stable_merging (fun _ => And.left) merging_grows)
    fun _ => ?_
  refine runs_bind (fun _ world => Merged graph original branches world ∧ known world.log) ?_
    fun _ => runs_validateMerged logged
  refine runs_mergeSyncRef (stable_logged logged stable_merging)
    (stable_logged logged stable_merged) (fun _ started => started.1.1) ?_
  rintro world other head ⟨merging, isKnown⟩ tracked ofHead ofOther
  refine ⟨⟨merging_grows world head merging ofHead, fun base isBase => ?_⟩, isKnown⟩
  cases tracked.symm.trans isBase
  exact ofOther

theorem runs_raceMerges {remoteWork : Option ι} :
    Runs (fun world => Validated graph original branches world ∧ known world.log)
      (mergeOrRollback surroundings original do
        onlyIf remoteWork.isSome (mergeSyncRef surroundings branches.workBranch)
        validateSyncHead surroundings (some original))
      (fun _ world => Validated graph original branches world ∧ known world.log)
      (Restored graph original branches) := by
  refine runs_mergeOrRollback ?_
  refine runs_bind _ ((runs_mergeWork logged stable_merged (fun _ merged => merged.1.1)
    merged_grows).weaken (fun _ started => ⟨started.1.1, started.2⟩) (fun _ _ => id) fun _ => id)
    fun _ => runs_validateMerged logged

end Merges

/-! ### Pushing -/

/-- The remote work branch held the validated head. -/
def Published (graph : CommitGraph ι) (original : ι) (branches : SyncBranches)
    (world : SyncWorld ι) : Prop :=
  Validated graph original branches world ∧
    ∃ remote ∈ world.remotes, remote branches.workBranch = some world.head

theorem stable_published : Stable (Published graph original branches) := by
  rintro world next quiet ⟨validated, remote, isRemote, isHead⟩
  refine ⟨stable_validated world next quiet validated, remote, quiet.remotes isRemote, ?_⟩
  rw [quiet.head]
  exact isHead

theorem validated_push {world : SyncWorld ι} (validated : Validated graph original branches world)
    {remote : Branches ι} (isHead : remote branches.workBranch = some world.head) :
    Published graph original branches { world with
      remote := remote
      remotes := remote :: world.remotes
      log := .pushed world.head :: world.log } := by
  obtain ⟨⟨⟨sound, quiet, base, logged⟩, contains⟩, isValid⟩ := validated
  refine ⟨⟨⟨⟨⟨sound.contains, ?_, ?_, ?_⟩, quiet.note nofun nofun, base,
    List.mem_cons_of_mem _ logged⟩, contains⟩, List.mem_cons_of_mem _ isValid⟩,
    remote, List.mem_cons_self, isHead⟩
  · refine ⟨fun head isPushed => ?_, sound.published⟩
    cases isPushed
    exact isValid
  · intro head fetched
    rcases List.mem_cons.mp fetched with same | fetched
    · cases same
    · exact sound.fetched head fetched
  · rintro head (fetched | pushed)
    · rcases List.mem_cons.mp fetched with same | fetched
      · cases same
      · obtain ⟨seen, isSeen, holds⟩ := sound.observed head (.inl fetched)
        exact ⟨seen, List.mem_cons_of_mem _ isSeen, holds⟩
    · rcases List.mem_cons.mp pushed with same | pushed
      · cases same
        exact ⟨remote, List.mem_cons_self, isHead⟩
      · obtain ⟨seen, isSeen, holds⟩ := sound.observed head (.inr pushed)
        exact ⟨seen, List.mem_cons_of_mem _ isSeen, holds⟩

section Push

variable [DecidableEq ι]

/-- The work branch that was merged last had been fetched. -/
def WorkFetched (branches : SyncBranches) (remoteWork : Option ι) (log : List (SyncEvent ι)) :
    Prop :=
  ∀ head, remoteWork = some head → .fetched branches.workBranch head ∈ log

omit [DecidableEq ι] in
theorem logged_workFetched {remoteWork : Option ι} : Logged (WorkFetched branches remoteWork) :=
  fun _ _ contained fetched head isHead => contained (fetched head isHead)

theorem runs_pushAttempts (left : Nat) (remoteWork : Option ι) :
    Runs (fun world => Validated graph original branches world ∧
        WorkFetched branches remoteWork world.log)
      (pushAttempts surroundings original branches.workBranch left remoteWork)
      (fun _ => Published graph original branches) (Outcome graph original) := by
  induction left generalizing remoteWork with
  | zero => exact runs_refuse fun world started => started.1.outcome
  | succ left ih =>
      have stable : Stable fun world => Validated graph original branches world ∧
          WorkFetched branches remoteWork world.log :=
        stable_logged logged_workFetched stable_validated
      refine runs_bind (fun head world => (Validated graph original branches world ∧
        WorkFetched branches remoteWork world.log) ∧ world.head = head) ?_ fun head => ?_
      · refine (runs_look stable).weaken (fun _ => id) ?_ fun _ ended => ended.1.outcome
        rintro head world ⟨ended, earlier, quiet, isRead⟩
        exact ⟨ended, quiet.head.trans (Option.some.inj isRead)⟩
      split
      case isTrue isRemote =>
        -- The remote already has this head: it was fetched.
        refine runs_pure ?_
        rintro world ⟨⟨validated, fetched⟩, rfl⟩
        exact ⟨validated, validated.1.1.1.observed _ (.inl (fetched _ isRemote))⟩
      case isFalse =>
      refine runs_bind _ ((runs_push stable_validated (Published graph original branches) ?_).weaken (fun _ started => started.1.1) (fun _ _ => id)
          fun _ ended => ended.outcome) fun pushed => ?_
      · exact fun world remote validated isHead => validated_push validated isHead
      cases pushed with
      | true => exact runs_pure fun _ => id
      | false =>
          by_cases last : left = 0
          · rw [if_neg Bool.false_ne_true, if_pos last]
            exact runs_refuse fun _ ended => ended.outcome
          · rw [if_neg Bool.false_ne_true, if_neg last]
            refine runs_bind _ ((runs_fetchOptionalWorkBranch fetchable_validated).weaken
              (fun _ => id) (fun _ _ => id) fun _ ended => ended.outcome) fun remoteWork => ?_
            refine runs_bind _ ((runs_raceMerges logged_workFetched).weaken (fun _ => id)
              (fun _ _ => id) fun _ ended => ended.outcome) fun _ => ih remoteWork

end Push

/-! ### The whole sync -/

theorem runs_verifyRemoteStore (stable : Stable before) :
    Runs before (verifyRemoteStore surroundings branches) (fun _ => before) before := by
  have look : ∀ {α : Type} (context : String) (read : SyncWorld ι → Option α),
      Runs before (Git.look surroundings context read) (fun _ => before) before :=
    fun _ _ => (runs_look stable).weaken (fun _ => id) (fun _ _ => And.left) fun _ => id
  have passes : ∀ (condition : Bool) (error : Error),
      Runs before (require condition error) (fun _ => before) before :=
    fun _ _ => (runs_require fun _ => id).weaken (fun _ => id) (fun _ _ => And.left) fun _ => id
  refine runs_bind _ (look _ _) fun _ => runs_bind _ (passes _ _) fun _ => ?_
  refine runs_bind _ (look _ _) fun _ => runs_bind _ (passes _ _) fun _ => ?_
  refine runs_bind _ (look _ _) fun _ => ?_
  exact runs_bind _ (runs_status stable) fun _ => passes _ _

theorem begin_beforeMerge (clone : Clone ι) (remote : Branches ι) :
    BeforeMerge graph clone.head branches (clone.begin remote) :=
  ⟨⟨graph.contains_refl _, trivial,
    fun _ member => absurd member List.not_mem_nil,
    fun _ member => by rcases member with member | member <;> cases member⟩, rfl,
    ⟨List.not_mem_nil, fun _ => List.not_mem_nil⟩, fun _ => List.not_mem_nil⟩

theorem runs_checkBeforeFetch :
    Runs (BeforeMerge graph original branches) (checkBeforeFetch surroundings branches)
      (fun head world => head = original ∧ BeforeMerge graph original branches world)
      (BeforeMerge graph original branches) := by
  refine runs_bind _ (runs_verifyRemoteStore stable_beforeMerge) fun _ => ?_
  refine runs_bind (fun _ => BeforeMerge graph original branches)
    ((runs_look stable_beforeMerge).weaken (fun _ => id) (fun _ _ => And.left) fun _ => id)
    fun pending => ?_
  refine runs_bind (fun _ => BeforeMerge graph original branches)
    ((runs_require fun _ => id).weaken (fun _ => id) (fun _ _ => And.left) fun _ => id)
    fun _ => ?_
  refine runs_bind _ (runs_validateSyncHead stable_beforeMerge ?_ ?_) fun _ => ?_
  · rintro world ⟨sound, isOriginal, quiet, notFetched⟩
    exact ⟨sound.note rfl, isOriginal, quiet.note nofun nofun,
      fun head => List.not_mem_cons_of_ne_of_not_mem nofun (notFetched head)⟩
  · rintro world ⟨sound, isOriginal, quiet, notFetched⟩
    exact ⟨sound.note rfl, isOriginal, quiet.note nofun nofun,
      fun head => List.not_mem_cons_of_ne_of_not_mem nofun (notFetched head)⟩
  · refine (runs_look stable_beforeMerge).weaken (fun _ started => started.1) ?_ fun _ => id
    rintro head world ⟨ended, earlier, quiet, isRead⟩
    have sameHead : earlier.head = head := Option.some.inj isRead
    exact ⟨(quiet.head.trans sameHead).symm.trans ended.2.1, ended⟩

theorem runs_syncKnowledgeLocked [DecidableEq ι] (installation : Installation) (clone : Clone ι)
    (remote : Branches ι) :
    Runs (fun world => world = clone.begin remote)
      (syncKnowledgeLocked surroundings installation)
      (fun _ world => ∃ branches, installation.syncBranches = .ok branches ∧
        Published graph clone.head branches world)
      (Outcome graph clone.head) := by
  refine runs_bind (fun branches world => installation.syncBranches = .ok branches ∧
    BeforeMerge graph clone.head branches world) ?_ fun branches => ?_
  · have read : Runs (fun world => world = clone.begin remote)
        (inspect fun _ => installation.syncBranches)
        (fun branches world => world = clone.begin remote ∧
          installation.syncBranches = .ok branches) (Outcome graph clone.head) := by
      refine ensures_inspect ?_
      rintro world error rfl -
      exact ⟨trivial, .inr (.inl rfl)⟩
    refine read.weaken (fun _ => id) ?_ fun _ => id
    rintro branches world ⟨rfl, isResult⟩
    exact ⟨isResult, begin_beforeMerge clone remote⟩
  refine ensures_of_before (fun _ started => started.1) fun isBranches => ?_
  refine runs_bind _ (runs_checkBeforeFetch.weaken (fun _ started => started.2) (fun _ _ => id)
    fun _ ended => ended.outcome) fun head => ?_
  refine ensures_of_before (fun _ started => started.1) ?_
  rintro rfl
  refine runs_bind _ (runs_fetchRequiredBranch.weaken (fun _ started => started.2)
    (fun _ _ => id) fun _ ended => ended.outcome) fun _ => ?_
  refine runs_bind _ ((runs_fetchOptionalWorkBranch fetchable_fetched).weaken (fun _ => id)
    (fun _ _ => id) fun _ ended => ⟨ended.1.1.published, .inr (.inl ended.2)⟩)
    fun remoteWork => ?_
  refine runs_bind _ ((runs_firstMerges logged_workFetched).weaken
    (fun _ started => ⟨started.1.1, started.2⟩) (fun _ _ => id) fun _ ended => ended.outcome)
    fun _ => ?_
  refine runs_bind _ (runs_pushAttempts _ remoteWork) fun pushed => ?_
  refine runs_bind (fun _ => Published graph clone.head branches)
    ((runs_look stable_published).weaken (fun _ => id) (fun _ _ => And.left)
      fun _ ended => ended.1.outcome) fun counts => ?_
  refine runs_bind (fun _ => Published graph clone.head branches)
    ((runs_require fun _ => id).weaken (fun _ => id) (fun _ _ => And.left)
      fun _ ended => ended.1.outcome) fun _ => ?_
  exact runs_pure fun world ended => ⟨branches, isBranches, ended⟩

theorem Outcome.restored {world : SyncWorld ι} (outcome : Outcome graph original world)
    (failed : .mergeFailed ∈ world.log ∨ ∃ head, .rejected (some original) head ∈ world.log) :
    .unrestored ∈ world.log ∨ world.head = original := by
  rcases outcome.head with unrestored | isOriginal | ⟨-, -, quiet⟩
  · exact .inl unrestored
  · exact .inr isOriginal
  · rcases failed with mergeFailed | ⟨head, rejected⟩
    · exact absurd mergeFailed quiet.1
    · exact absurd rejected (quiet.2 head)

/-- Every commit has all smaller ones as parents. -/
def countedGraph : CommitGraph Nat where
  parents := List.range

/-- Commands succeed except at some ticks; the merged head is the larger one. -/
def countedSurroundings (fails : List Nat) (storeCheck : Nat → Result Unit) :
    Surroundings countedGraph where
  others _ remote := remote
  runs _ := true
  succeeds now := decide (now ∉ fails)
  probe _ := some 2
  leavesMerge _ := false
  clean _ := true
  storeCheck := storeCheck
  quarantines _ := pure false
  merged _ head other := max head other
  mergedLaw := by
    intro _ head other
    have reaches : ∀ {larger smaller : Nat}, smaller ≤ larger →
        countedGraph.Contains larger smaller := by
      intro larger smaller isLe
      rcases Nat.eq_or_lt_of_le isLe with rfl | isLt
      · exact countedGraph.contains_refl _
      · exact Relation.ReflTransGen.single (List.mem_range.mpr isLt)
    exact ⟨reaches (Nat.le_max_left head other), reaches (Nat.le_max_right head other)⟩
  divergence left right := (left - right, right - left)

def sampleInstallation : Installation where
  manifest := pure (some ⟨"i", .remote "main" "shared-context/i" "d"⟩)
  isUuid _ := true
  newUuid := "new"

def sampleClone : Clone Nat where
  head := 1
  currentBranch := "shared-context/i"
  originDigest := "d"
  tracking branch := if branch = "main" then some 1 else none
  mergeInProgress := false
  pendingBatches := 0

def sampleRemote : Branches Nat := fun branch => if branch = "main" then some 2 else none

example : (syncKnowledgeLocked (countedSurroundings [] fun _ => pure ()) sampleInstallation
    ⟨sampleClone.begin sampleRemote, none⟩).2.state.log =
      [.pushed 2, .validated (some 1) 2, .fetched "main" 2, .validated none 1] := by
  decide +kernel

/-- The first check of the merged head fails, and so does the reset after it. -/
def failedRollback : SyncWorld Nat :=
  (syncKnowledgeLocked
    (countedSurroundings [16] fun now =>
      if now = 14 then throw (invariantError "worktree changed a committed Event") else pure ())
    sampleInstallation ⟨sampleClone.begin sampleRemote, none⟩).2.state

theorem failedRollback_head : failedRollback.head = 2 := by
  decide +kernel

theorem failedRollback_log : failedRollback.log =
    [.unrestored, .rejected (some 1) 2, .fetched "main" 2, .validated none 1] := by
  decide +kernel

end SharedContext.Installer
