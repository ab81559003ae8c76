import SharedContext.TaskRuntime.BuildDecisions

/-!
# Runs of preparations, submissions and results

A run interleaves preparations that classify every Claim of a closed Episode,
writes of prepared submissions to Git, and results.  A refused call leaves the
tables as they were.
-/

namespace SharedContext

variable {episodes : Episodes} {contentHash : CheckpointClaimId → String}
  {tables after : CandidateTables} {buildId : CandidateBuildId}

/-! ### Steps that keep every item -/

/-- Every item is kept and none is added; duplicates and Builds stay. -/
structure ItemsKept (before after : CandidateTables) : Prop where
  kept : ∀ old ∈ before.candidateBuildItem, ∃ new ∈ after.candidateBuildItem, KeepsItem old new
  origin : ∀ new ∈ after.candidateBuildItem, ∃ old ∈ before.candidateBuildItem,
    KeepsItem old new ∧ new.state.contentHash = old.state.contentHash
  unique : SubmissionsUnique before → SubmissionsUnique after
  duplicates : after.candidateBuildDuplicate = before.candidateBuildDuplicate
  builds : ∀ new ∈ after.candidateBuild, ∃ old ∈ before.candidateBuild,
    old.buildId = new.buildId ∧ old.sourceEpisode = new.sourceEpisode
  buildsKept : ∀ old ∈ before.candidateBuild, ∃ new ∈ after.candidateBuild,
    new.buildId = old.buildId ∧ new.sourceEpisode = old.sourceEpisode

namespace ItemsKept

theorem trans {first second third : CandidateTables} (before : ItemsKept first second)
    (after : ItemsKept second third) : ItemsKept first third where
  kept := by
    intro old oldMem
    obtain ⟨middle, middleMem, keeps⟩ := before.kept old oldMem
    obtain ⟨new, newMem, keepsNew⟩ := after.kept middle middleMem
    exact ⟨new, newMem, keeps.trans keepsNew⟩
  origin := by
    intro new newMem
    obtain ⟨middle, middleMem, keepsNew, newHash⟩ := after.origin new newMem
    obtain ⟨old, oldMem, keeps, oldHash⟩ := before.origin middle middleMem
    exact ⟨old, oldMem, keeps.trans keepsNew, newHash.trans oldHash⟩
  unique := after.unique ∘ before.unique
  duplicates := after.duplicates.trans before.duplicates
  builds := by
    intro new newMem
    obtain ⟨middle, middleMem, sameId, sameEpisode⟩ := after.builds new newMem
    obtain ⟨old, oldMem, oldId, oldEpisode⟩ := before.builds middle middleMem
    exact ⟨old, oldMem, oldId.trans sameId, oldEpisode.trans sameEpisode⟩
  buildsKept := by
    intro old oldMem
    obtain ⟨middle, middleMem, sameId, sameEpisode⟩ := before.buildsKept old oldMem
    obtain ⟨new, newMem, newId, newEpisode⟩ := after.buildsKept middle middleMem
    exact ⟨new, newMem, newId.trans sameId, newEpisode.trans sameEpisode⟩

/-- A step that changes no item, duplicate or Build. -/
theorem of_eq (itemsEq : after.candidateBuildItem = tables.candidateBuildItem)
    (duplicatesEq : after.candidateBuildDuplicate = tables.candidateBuildDuplicate)
    (buildsEq : after.candidateBuild = tables.candidateBuild) : ItemsKept tables after where
  kept old oldMem := ⟨old, itemsEq ▸ oldMem, KeepsItem.refl old⟩
  origin new newMem := ⟨new, itemsEq ▸ newMem, KeepsItem.refl new, rfl⟩
  unique := by
    intro unique first firstMem second secondMem
    rw [itemsEq] at firstMem secondMem
    exact unique first firstMem second secondMem
  duplicates := duplicatesEq
  builds new newMem := ⟨new, buildsEq ▸ newMem, rfl, rfl⟩
  buildsKept old oldMem := ⟨old, buildsEq ▸ oldMem, rfl, rfl⟩

theorem classified (kept : ItemsKept tables after)
    (classified : BuildsClassified episodes contentHash tables) :
    BuildsClassified episodes contentHash after := by
  refine ⟨⟨?_, ?_, ?_, ?_, kept.unique classified.unique, ?_⟩, ?_⟩
  · intro item itemMem
    obtain ⟨old, oldMem, keeps, _⟩ := kept.origin item itemMem
    obtain ⟨owner, ownerMem, ownerId⟩ := classified.itemsOwned old oldMem
    obtain ⟨build, buildMem, sameId, _⟩ := kept.buildsKept owner ownerMem
    exact ⟨build, buildMem, sameId.trans (ownerId.trans (congrArg Prod.fst keeps.key).symm)⟩
  · intro duplicate duplicateMem
    rw [kept.duplicates] at duplicateMem
    obtain ⟨owner, ownerMem, ownerId⟩ := classified.duplicatesOwned duplicate duplicateMem
    obtain ⟨build, buildMem, sameId, _⟩ := kept.buildsKept owner ownerMem
    exact ⟨build, buildMem, sameId.trans ownerId⟩
  · intro first firstMem second secondMem sameEpisode
    obtain ⟨firstOld, firstOldMem, firstId, firstEpisode⟩ := kept.builds first firstMem
    obtain ⟨secondOld, secondOldMem, secondId, secondEpisode⟩ := kept.builds second secondMem
    rw [← firstEpisode, ← secondEpisode] at sameEpisode
    have sameOld := classified.oneBuild firstOld firstOldMem secondOld secondOldMem sameEpisode
    subst sameOld
    exact Table.eq_of_key firstMem secondMem (firstId.symm.trans secondId)
  · intro item itemMem duplicate duplicateMem
    rw [kept.duplicates] at duplicateMem
    obtain ⟨old, oldMem, keeps, _⟩ := kept.origin item itemMem
    rw [keeps.key]
    exact classified.disjoint old oldMem duplicate duplicateMem
  · intro item itemMem
    obtain ⟨old, oldMem, keeps, sameHash⟩ := kept.origin item itemMem
    rw [sameHash, show item.claimId = old.claimId from congrArg Prod.snd keeps.key]
    exact classified.hashes old oldMem
  · intro build buildMem
    obtain ⟨oldBuild, oldBuildMem, sameId, sameEpisode⟩ := kept.builds build buildMem
    obtain ⟨episode, episodeMem, episodeId, old⟩ := classified.builds oldBuild oldBuildMem
    refine ⟨episode, episodeMem, episodeId.trans (by rw [sameEpisode]), ?_⟩
    rw [sameId] at old
    refine ⟨?_, ?_, ?_⟩
    · intro item itemMem sameBuild
      obtain ⟨stored, storedMem, keeps, _⟩ := kept.origin item itemMem
      obtain ⟨buildEq, claimEq⟩ := Prod.ext_iff.mp keeps.key
      rw [keeps.checkpoint, show item.claimId = stored.claimId from claimEq]
      exact old.items stored storedMem (buildEq.symm.trans sameBuild)
    · rw [kept.duplicates]
      exact old.duplicates
    · intro claim claimMem
      rw [kept.duplicates]
      rcases old.covered claim claimMem with ⟨item, itemMem, keyEq⟩ | isDuplicate
      · obtain ⟨new, newMem, keeps⟩ := kept.kept item itemMem
        exact Or.inl ⟨new, newMem, keeps.key.trans keyEq⟩
      · exact Or.inr isDuplicate

end ItemsKept

theorem refreshCandidateBuildStatus_kept (tables : CandidateTables) (buildId : CandidateBuildId) :
    ItemsKept tables (refreshCandidateBuildStatus tables buildId) where
  kept old oldMem := ⟨old, oldMem, KeepsItem.refl old⟩
  origin new newMem := ⟨new, newMem, KeepsItem.refl new, rfl⟩
  unique := id
  duplicates := rfl
  builds := by
    intro new newMem
    obtain ⟨old, oldMem, rfl⟩ := List.mem_map.mp newMem
    exact ⟨old, oldMem, by split <;> rfl, by split <;> rfl⟩
  buildsKept := by
    intro old oldMem
    exact ⟨_, List.mem_map.mpr ⟨old, oldMem, rfl⟩, by split <;> rfl, by split <;> rfl⟩

theorem writeItemResult_kept {existing : CandidateBuildItemRow}
    {status : CandidateBuildItemStatus} {candidateId : Option CandidateId}
    {eventId : Option EventId} {errorCode : Option String}
    (wrote : writeItemResult tables existing status candidateId eventId errorCode = .ok after)
    (existingMem : existing ∈ tables.candidateBuildItem) (unique : SubmissionsUnique tables) :
    ItemsKept tables after := by
  unfold writeItemResult at wrote
  split at wrote
  case isTrue =>
    simp only [Result.bind_eq_ok, Result.exists_unit, Result.pure_eq_ok] at wrote
    rw [← wrote.2]
    exact ItemsKept.of_eq rfl rfl rfl
  case isFalse open_ =>
    simp only [Result.bind_eq_ok, Result.pure_eq_ok] at wrote
    obtain ⟨state, checked, made⟩ := wrote
    cases made
    have columns := CandidateBuildItemState.ofColumns_eq_ok checked
    -- The row the update selects is the item that was read.
    have selected : ∀ old ∈ tables.candidateBuildItem,
        old.buildId = existing.buildId ∧ old.submissionId = existing.submissionId →
          KeepsItem old { old with state } ∧ state.contentHash = old.state.contentHash := by
      intro old oldMem matched
      have oldEq := unique old oldMem existing existingMem matched.2
      subst oldEq
      exact ⟨⟨rfl, rfl, rfl, fun finalized => absurd finalized open_⟩, columns.1⟩
    refine ⟨?_, ?_, updateCandidateBuildItems_unique, rfl, ?_, ?_⟩
    · intro old oldMem
      refine ⟨_, mem_updateCandidateBuildItems.mpr ⟨old, oldMem, rfl⟩, ?_⟩
      split
      case isTrue matched => exact (selected old oldMem (of_decide_eq_true matched)).1
      case isFalse => exact KeepsItem.refl old
    · intro new newMem
      obtain ⟨old, oldMem, rfl⟩ := mem_updateCandidateBuildItems.mp newMem
      refine ⟨old, oldMem, ?_⟩
      split
      case isTrue matched => exact selected old oldMem (of_decide_eq_true matched)
      case isFalse => exact ⟨KeepsItem.refl old, rfl⟩
    · exact fun new newMem => ⟨new, newMem, rfl, rfl⟩
    · exact fun old oldMem => ⟨old, oldMem, rfl, rfl⟩

theorem initializeCandidateReview_frame (tables : CandidateTables) (buildId : CandidateBuildId)
    (submissionId : SubmissionId) (candidateId : CandidateId) (now expiresAt : Nat) :
    ∃ candidateReview,
      initializeCandidateReview tables buildId submissionId candidateId now expiresAt =
        { tables with candidateReview } := by
  unfold initializeCandidateReview
  dsimp only
  split
  case h_1 => exact ⟨_, rfl⟩
  case h_2 =>
    split
    case isTrue => exact ⟨_, rfl⟩
    case isFalse =>
      split
      case h_1 candidateReview _ => exact ⟨candidateReview, rfl⟩
      case h_2 => exact ⟨_, rfl⟩

theorem recordCandidateBuildItemResult_kept {submissionId : SubmissionId}
    {status : CandidateBuildItemStatus} {candidateId : Option CandidateId}
    {eventId : Option EventId} {errorCode : Option String} {now : Nat}
    {view : CandidateBuildView}
    (ran : recordCandidateBuildItemResult tables buildId submissionId status candidateId eventId
      errorCode now = .ok (after, view))
    (unique : SubmissionsUnique tables) : ItemsKept tables after := by
  simp only [recordCandidateBuildItemResult, Result.bind_eq_ok, Result.exists_unit] at ran
  obtain ⟨_, _, ran⟩ := ran
  split at ran
  case h_1 => cases ran
  case h_2 existing found =>
    simp only [Result.bind_eq_ok, Result.pure_eq_ok] at ran
    obtain ⟨written, wrote, reviewed, opened, _, _, made⟩ := ran
    cases made
    have existingMem := (readCandidateBuildItem_eq_some found).1
    have wroteKept := writeItemResult_kept wrote existingMem unique
    have openedKept : ItemsKept written reviewed := by
      split at opened
      case isTrue =>
        cases candidateId with
        | none => cases opened
        | some candidate =>
          simp only [Result.bind_eq_ok, Result.exists_unit, Result.pure_eq_ok] at opened
          obtain ⟨_, _, made⟩ := opened
          obtain ⟨candidateReview, frame⟩ := initializeCandidateReview_frame written buildId
            submissionId candidate now (now + defaultCandidateReviewTtl)
          rw [← made, frame]
          exact ItemsKept.of_eq rfl rfl rfl
      case isFalse =>
        cases opened
        exact ItemsKept.of_eq rfl rfl rfl
    exact (wroteKept.trans openedKept).trans (refreshCandidateBuildStatus_kept reviewed buildId)

/-! ### Preparations -/

/-- The inputs of one call: every persisted Claim of a closed Episode is
classified exactly once, with the content hash of the Claim, and the identifiers
the call would create are fresh. -/
structure IsClassification (episodes : Episodes) (contentHash : CheckpointClaimId → String)
    (tables : CandidateTables) (newIds : NewBuildIds) (episodeId : WorkEpisodeId)
    (items : List CandidateBuildItemPreparation)
    (duplicates : List CandidateBuildDuplicatePreparation) : Prop where
  valid : validateBuildPreparations items = .ok ()
  closed : ∃ episode, episodes.find? episodeId = some episode ∧
    (∃ finalCheckpointId, episode.status = .closed finalCheckpointId) ∧
    validateBuildClaimCoverage episode items duplicates = .ok ()
  sameHash : ∀ item ∈ items, item.contentHash = none ∨
    item.contentHash = some (contentHash item.claimId)
  inRange : ∀ duplicate ∈ duplicates, duplicate.similarityBasisPoints ≤ 10000
  fresh : newIds.Fresh items.length tables

variable {newIds : NewBuildIds} {episodeId : WorkEpisodeId}
  {items : List CandidateBuildItemPreparation}
  {duplicates : List CandidateBuildDuplicatePreparation}

theorem prepareCandidateBuildWithDuplicates_ok {view : CandidateBuildView}
    (ran : prepareCandidateBuildWithDuplicates episodes.find? tables newIds episodeId items
      duplicates = .ok (after, view)) :
    ∃ episode finalCheckpointId opened buildId merged,
      episodes.find? episodeId = some episode ∧
      validateBuildClaimCoverage episode items duplicates = .ok () ∧
      requireCandidateBuild tables newIds episode finalCheckpointId = .ok (opened, buildId) ∧
      mergeClassification opened buildId newIds items duplicates = .ok merged ∧
      after = refreshCandidateBuildStatus merged buildId := by
  simp only [prepareCandidateBuildWithDuplicates, Result.bind_eq_ok, Result.exists_unit] at ran
  obtain ⟨_, ran⟩ := ran
  split at ran
  case h_1 => cases ran
  case h_2 episode found =>
    split at ran
    case h_1 => cases ran
    case h_2 finalCheckpointId closed =>
      simp only [Result.bind_eq_ok, Result.exists_unit, Result.pure_eq_ok, Prod.exists] at ran
      obtain ⟨covered, opened, buildId, required, merged, classified, _, _, made⟩ := ran
      cases made
      exact ⟨episode, finalCheckpointId, opened, buildId, merged, found, covered, required,
        classified, rfl⟩

theorem prepare_classified {view : CandidateBuildView}
    (ran : prepareCandidateBuildWithDuplicates episodes.find? tables newIds episodeId items
      duplicates = .ok (after, view))
    (sameHash : ∀ item ∈ items, item.contentHash = none ∨
      item.contentHash = some (contentHash item.claimId))
    (inRange : ∀ duplicate ∈ duplicates, duplicate.similarityBasisPoints ≤ 10000)
    (classified : BuildsClassified episodes contentHash tables) :
    BuildsClassified episodes contentHash after := by
  obtain ⟨episode, finalCheckpointId, opened, buildId, merged, found, covered, required, merges,
    rfl⟩ := prepareCandidateBuildWithDuplicates_ok ran
  have episodeMem := (Table.find?_eq_some.mp found).1
  have isOpened := (requireCandidateBuild_opened required episodeMem classified).1
  have mergedClassified := mergeClassification_classified isOpened (mergeClassification_ok merges)
    covered inRange sameHash episodeMem
  exact (refreshCandidateBuildStatus_kept merged buildId).classified mergedClassified

/-- The items of the Build of an Episode that a preparation would reclassify as
duplicates. -/
def Reclassified (tables : CandidateTables) (episodeId : WorkEpisodeId)
    (duplicates : List CandidateBuildDuplicatePreparation) (item : CandidateBuildItemRow) : Prop :=
  readCandidateBuildId tables episodeId = some item.buildId ∧
    ∃ duplicate ∈ duplicates, item.claimId = duplicate.claimId

theorem requireCandidateBuild_known {episode : WorkEpisodeView}
    {finalCheckpointId : AgentCheckpointId} {opened : CandidateTables}
    (required : requireCandidateBuild tables newIds episode finalCheckpointId =
      .ok (opened, buildId))
    (known : ∃ build ∈ tables.candidateBuild, build.buildId = buildId) :
    readCandidateBuildId tables episode.ownership.episodeId = some buildId := by
  unfold requireCandidateBuild at required
  split at required
  case h_1 stored isStored =>
    cases required
    exact isStored
  case h_2 isAbsent =>
    split at required
    case h_1 inserted insertEq =>
      cases required
      obtain ⟨build, buildMem, sameId⟩ := known
      exact absurd sameId ((Table.insert_eq_some.mp insertEq).1 build buildMem)
    case h_2 => cases required

/-- What a preparation does to items and duplicates: a finalized item stays, an
item that is not reclassified keeps its submission, a duplicate stays. -/
theorem prepare_keeps {view : CandidateBuildView}
    (ran : prepareCandidateBuildWithDuplicates episodes.find? tables newIds episodeId items
      duplicates = .ok (after, view))
    (classified : BuildsClassified episodes contentHash tables) :
    (∀ old ∈ tables.candidateBuildItem, old.state.status.isFinalized = true →
      old ∈ after.candidateBuildItem) ∧
    (∀ old ∈ tables.candidateBuildItem, ¬ Reclassified tables episodeId duplicates old →
      ∃ new ∈ after.candidateBuildItem, KeepsItem old new) ∧
    (∀ old ∈ tables.candidateBuildDuplicate, old ∈ after.candidateBuildDuplicate) := by
  obtain ⟨episode, finalCheckpointId, opened, buildId, merged, found, _, required, merges,
    rfl⟩ := prepareCandidateBuildWithDuplicates_ok ran
  obtain ⟨episodeMem, sameEpisode⟩ := Table.find?_eq_some.mp found
  obtain ⟨isOpened, itemsEq, duplicatesEq⟩ :=
    requireCandidateBuild_opened required episodeMem classified
  have effect := mergeClassification_ok merges
  refine ⟨?_, ?_, ?_⟩
  · intro old oldMem finalized
    rcases effect.kept old (itemsEq ▸ oldMem) with ⟨new, newMem, prepares⟩ | ⟨open_, _⟩
    · rw [prepares.finalized finalized] at newMem
      exact newMem
    · rw [finalized] at open_
      cases open_
  · intro old oldMem notReclassified
    rcases effect.kept old (itemsEq ▸ oldMem) with ⟨new, newMem, prepares⟩ | released
    · exact ⟨new, newMem, prepares.toKeepsItem⟩
    · obtain ⟨_, duplicate, duplicateMem, keyEq⟩ := released
      obtain ⟨sameBuild, sameClaim⟩ := Prod.ext_iff.mp keyEq
      obtain ⟨owner, ownerMem, ownerId⟩ := classified.itemsOwned old oldMem
      refine absurd ⟨?_, duplicate, duplicateMem, sameClaim⟩ notReclassified
      rw [show old.buildId = buildId from sameBuild, ← sameEpisode]
      exact requireCandidateBuild_known required ⟨owner, ownerMem, ownerId.trans sameBuild⟩
  · intro old oldMem
    exact effect.duplicatesKept old (duplicatesEq ▸ oldMem)

theorem requireCandidateBuild_succeeds (episode : WorkEpisodeView)
    (finalCheckpointId : AgentCheckpointId)
    (fresh : ∀ row ∈ tables.candidateBuild, row.buildId ≠ newIds.buildId) :
    ∃ opened buildId,
      requireCandidateBuild tables newIds episode finalCheckpointId = .ok (opened, buildId) := by
  unfold requireCandidateBuild
  cases readCandidateBuildId tables episode.ownership.episodeId with
  | some buildId => exact ⟨tables, buildId, rfl⟩
  | none =>
      cases attempt : tables.candidateBuild.insert
          ⟨newIds.buildId, episode.ownership, finalCheckpointId, .pending⟩ with
      | some candidateBuild =>
          exact ⟨{ tables with candidateBuild }, newIds.buildId, by simp only⟩
      | none => exact absurd fresh (Table.insert_eq_none.mp attempt)

theorem prepare_succeeds
    (isClassification : IsClassification episodes contentHash tables newIds episodeId items
      duplicates)
    (classified : BuildsClassified episodes contentHash tables)
    (keeps : ∀ item ∈ tables.candidateBuildItem, Reclassified tables episodeId duplicates item →
      item.state.status.isFinalized = false) :
    ∃ answer, prepareCandidateBuildWithDuplicates episodes.find? tables newIds episodeId items
      duplicates = .ok answer := by
  obtain ⟨episode, found, ⟨finalCheckpointId, closed⟩, covered⟩ := isClassification.closed
  obtain ⟨episodeMem, sameEpisode⟩ := Table.find?_eq_some.mp found
  obtain ⟨opened, buildId, required⟩ := requireCandidateBuild_succeeds episode finalCheckpointId
    isClassification.fresh.build
  obtain ⟨isOpened, itemsEq, _⟩ := requireCandidateBuild_opened required episodeMem classified
  have keepsOpened : ∀ duplicate ∈ duplicates, ∀ item ∈ opened.candidateBuildItem,
      item.key = (buildId, duplicate.claimId) → item.state.status.isFinalized = false := by
    intro duplicate duplicateMem item itemMem keyEq
    rw [itemsEq] at itemMem
    obtain ⟨sameBuild, sameClaim⟩ := Prod.ext_iff.mp keyEq
    refine keeps item itemMem ⟨?_, duplicate, duplicateMem, sameClaim⟩
    obtain ⟨owner, ownerMem, ownerId⟩ := classified.itemsOwned item itemMem
    rw [show item.buildId = buildId from sameBuild, ← sameEpisode]
    exact requireCandidateBuild_known required ⟨owner, ownerMem, ownerId.trans sameBuild⟩
  obtain ⟨merged, merges⟩ := mergeClassification_succeeds isOpened isClassification.valid covered
    isClassification.sameHash isClassification.fresh.distinct (Nat.le_refl _)
    (itemsEq ▸ isClassification.fresh.submissions) keepsOpened
  obtain ⟨build, buildMem, buildIdEq, _⟩ := isOpened.opened
  have viewed : ∃ view, requireCandidateBuildView (refreshCandidateBuildStatus merged buildId)
      buildId = .ok view := by
    have mergedBuild : build ∈ merged.candidateBuild := by
      rw [(mergeClassification_ok merges).frame]
      exact buildMem
    obtain ⟨row, rowMem, sameId, _⟩ :=
      (refreshCandidateBuildStatus_kept merged buildId).buildsKept build mergedBuild
    have rowFound := Table.find?_eq_some.mpr ⟨rowMem, sameId.trans buildIdEq⟩
    exact ⟨_, by rw [requireCandidateBuildView, rowFound]⟩
  obtain ⟨view, isView⟩ := viewed
  refine ⟨(refreshCandidateBuildStatus merged buildId, view), ?_⟩
  simp only [prepareCandidateBuildWithDuplicates, found, closed, Result.bind_eq_ok,
    Result.exists_unit, Result.pure_eq_ok, Prod.exists]
  exact ⟨isClassification.valid, covered, opened, buildId, required, merged, merges, view, isView,
    rfl⟩

/-! ### Runs -/

/-- The tables, and the submissions that may have been written to Git. -/
structure BuildStore where
  tables : CandidateTables
  written : List SubmissionId

def BuildStore.empty : BuildStore :=
  ⟨.empty, []⟩

inductive BuildStep
  | prepare (newIds : NewBuildIds) (episodeId : WorkEpisodeId)
      (items : List CandidateBuildItemPreparation)
      (duplicates : List CandidateBuildDuplicatePreparation)
  | submit (submissionId : SubmissionId)
  | record (buildId : CandidateBuildId) (submissionId : SubmissionId)
      (status : CandidateBuildItemStatus) (candidateId : Option CandidateId)
      (eventId : Option EventId) (errorCode : Option String) (now : Nat)

/-- The builder writes the items that are neither finalized nor waiting for
evidence. -/
def submittable (tables : CandidateTables) (submissionId : SubmissionId) : Bool :=
  tables.candidateBuildItem.rows.any fun item =>
    item.submissionId = submissionId && !item.state.status.isFinalized &&
      item.state.status ≠ .needsEvidence

/-- A refused call leaves the tables as they were. -/
def performBuildStep (episodes : Episodes) (store : BuildStore) : BuildStep → BuildStore
  | .prepare newIds episodeId items duplicates =>
      match prepareCandidateBuildWithDuplicates episodes.find? store.tables newIds episodeId
          items duplicates with
      | .ok (tables, _) => { store with tables }
      | .error _ => store
  | .submit submissionId =>
      if submittable store.tables submissionId then
        { store with written := submissionId :: store.written }
      else
        store
  | .record buildId submissionId status candidateId eventId errorCode now =>
      match recordCandidateBuildItemResult store.tables buildId submissionId status candidateId
          eventId errorCode now with
      | .ok (tables, _) => { store with tables }
      | .error _ => store

/-- A preparation classifies every Claim; the other steps are free. -/
def BuildStep.Classifies (episodes : Episodes) (contentHash : CheckpointClaimId → String)
    (tables : CandidateTables) : BuildStep → Prop
  | prepare newIds episodeId items duplicates =>
      IsClassification episodes contentHash tables newIds episodeId items duplicates
  | submit _ | record .. => True

/-- No preparation reclassifies as a duplicate a Claim whose item is finalized,
or whose submission may have been written to Git. -/
def KeepsDecisions (store : BuildStore) : BuildStep → Prop
  | .prepare _ episodeId _ duplicates => ∀ item ∈ store.tables.candidateBuildItem,
      Reclassified store.tables episodeId duplicates item →
        item.state.status.isFinalized = false ∧ item.submissionId ∉ store.written
  | .submit _ | .record .. => True

/-- The runs from a store whose steps are all allowed. -/
inductive BuildRun (episodes : Episodes) (contentHash : CheckpointClaimId → String)
    (allowed : BuildStore → BuildStep → Prop) (first : BuildStore) : BuildStore → Prop
  | start : BuildRun episodes contentHash allowed first first
  | step {store : BuildStore} (run : BuildRun episodes contentHash allowed first store)
      (step : BuildStep) (classifies : step.Classifies episodes contentHash store.tables)
      (isAllowed : allowed store step) :
      BuildRun episodes contentHash allowed first (performBuildStep episodes store step)

/-- What no step undoes: a finalized item and a recorded duplicate stay. -/
structure DecisionsStay (before after : CandidateTables) : Prop where
  finalized : ∀ old ∈ before.candidateBuildItem, old.state.status.isFinalized = true →
    old ∈ after.candidateBuildItem
  duplicates : ∀ old ∈ before.candidateBuildDuplicate, old ∈ after.candidateBuildDuplicate

theorem DecisionsStay.refl (tables : CandidateTables) : DecisionsStay tables tables :=
  ⟨fun _ oldMem _ => oldMem, fun _ oldMem => oldMem⟩

theorem DecisionsStay.trans {first second third : CandidateTables}
    (before : DecisionsStay first second) (after : DecisionsStay second third) :
    DecisionsStay first third :=
  ⟨fun old oldMem finalized => after.finalized old (before.finalized old oldMem finalized)
      finalized,
    fun old oldMem => after.duplicates old (before.duplicates old oldMem)⟩

theorem ItemsKept.decisionsStay (kept : ItemsKept tables after) : DecisionsStay tables after where
  finalized := by
    intro old oldMem finalized
    obtain ⟨new, newMem, keeps⟩ := kept.kept old oldMem
    rwa [keeps.finalized finalized] at newMem
  duplicates := by
    intro old oldMem
    rwa [kept.duplicates]

theorem performBuildStep_cases (episodes : Episodes) (store : BuildStore) (step : BuildStep) :
    performBuildStep episodes store step = store ∨
    (∃ newIds episodeId items duplicates tables view,
      step = .prepare newIds episodeId items duplicates ∧
      prepareCandidateBuildWithDuplicates episodes.find? store.tables newIds episodeId items
        duplicates = .ok (tables, view) ∧
      performBuildStep episodes store step = { store with tables }) ∨
    (∃ submissionId, performBuildStep episodes store step =
      { store with written := submissionId :: store.written }) ∨
    (∃ buildId submissionId status candidateId eventId errorCode now tables view,
      recordCandidateBuildItemResult store.tables buildId submissionId status candidateId eventId
        errorCode now = .ok (tables, view) ∧
      performBuildStep episodes store step = { store with tables }) := by
  cases step with
  | prepare newIds episodeId items duplicates =>
      cases ran : prepareCandidateBuildWithDuplicates episodes.find? store.tables newIds
          episodeId items duplicates with
      | error => exact Or.inl (by simp only [performBuildStep, ran])
      | ok answer =>
          exact Or.inr (Or.inl ⟨newIds, episodeId, items, duplicates, answer.1, answer.2, rfl,
            ran, by simp only [performBuildStep, ran]⟩)
  | submit submissionId =>
      by_cases isSubmittable : submittable store.tables submissionId = true
      · exact Or.inr (Or.inr (Or.inl ⟨submissionId, by
          simp only [performBuildStep, if_pos isSubmittable]⟩))
      · exact Or.inl (by simp only [performBuildStep, if_neg isSubmittable])
  | record buildId submissionId status candidateId eventId errorCode now =>
      cases ran : recordCandidateBuildItemResult store.tables buildId submissionId status
          candidateId eventId errorCode now with
      | error => exact Or.inl (by simp only [performBuildStep, ran])
      | ok answer =>
          exact Or.inr (Or.inr (Or.inr ⟨buildId, submissionId, status, candidateId, eventId,
            errorCode, now, answer.1, answer.2, ran, by simp only [performBuildStep, ran]⟩))

theorem performBuildStep_stays {store : BuildStore} {step : BuildStep}
    (classifies : step.Classifies episodes contentHash store.tables)
    (classified : BuildsClassified episodes contentHash store.tables) :
    BuildsClassified episodes contentHash (performBuildStep episodes store step).tables ∧
      DecisionsStay store.tables (performBuildStep episodes store step).tables := by
  rcases performBuildStep_cases episodes store step with unchanged | prepared | wrote | recorded
  · rw [unchanged]
    exact ⟨classified, DecisionsStay.refl _⟩
  · obtain ⟨newIds, episodeId, items, duplicates, tables, view, rfl, ran, stepEq⟩ := prepared
    obtain ⟨finalizedStay, _, duplicatesStay⟩ := prepare_keeps ran classified
    rw [stepEq]
    exact ⟨prepare_classified ran classifies.sameHash classifies.inRange classified,
      finalizedStay, duplicatesStay⟩
  · obtain ⟨submissionId, stepEq⟩ := wrote
    rw [stepEq]
    exact ⟨classified, DecisionsStay.refl _⟩
  · obtain ⟨_, _, _, _, _, _, _, tables, view, ran, stepEq⟩ := recorded
    have kept := recordCandidateBuildItemResult_kept ran classified.unique
    rw [stepEq]
    exact ⟨kept.classified classified, kept.decisionsStay⟩

/-- Every submission that may be in Git still belongs to the item of its Claim. -/
def WrittenStay (before after : BuildStore) : Prop :=
  ∀ old ∈ before.tables.candidateBuildItem, old.submissionId ∈ before.written →
    ∃ new ∈ after.tables.candidateBuildItem, new.key = old.key ∧
      new.submissionId = old.submissionId

theorem WrittenStay.refl (store : BuildStore) : WrittenStay store store :=
  fun old oldMem _ => ⟨old, oldMem, rfl, rfl⟩

theorem performBuildStep_written {store : BuildStore} {step : BuildStep}
    (classified : BuildsClassified episodes contentHash store.tables)
    (keeps : KeepsDecisions store step) :
    WrittenStay store (performBuildStep episodes store step) ∧
      store.written ⊆ (performBuildStep episodes store step).written := by
  rcases performBuildStep_cases episodes store step with unchanged | prepared | wrote | recorded
  · rw [unchanged]
    exact ⟨WrittenStay.refl store, fun _ isWritten => isWritten⟩
  · obtain ⟨newIds, episodeId, items, duplicates, tables, view, rfl, ran, stepEq⟩ := prepared
    rw [stepEq]
    refine ⟨?_, fun _ isWritten => isWritten⟩
    intro old oldMem isWritten
    have notReclassified : ¬ Reclassified store.tables episodeId duplicates old :=
      fun reclassified => (keeps old oldMem reclassified).2 isWritten
    obtain ⟨new, newMem, kept⟩ :=
      (prepare_keeps ran classified).2.1 old oldMem notReclassified
    exact ⟨new, newMem, kept.key, kept.submission⟩
  · obtain ⟨submissionId, stepEq⟩ := wrote
    rw [stepEq]
    exact ⟨WrittenStay.refl store, fun _ isWritten => List.mem_cons_of_mem _ isWritten⟩
  · obtain ⟨_, _, _, _, _, _, _, tables, view, ran, stepEq⟩ := recorded
    have kept := recordCandidateBuildItemResult_kept ran classified.unique
    rw [stepEq]
    refine ⟨?_, fun _ isWritten => isWritten⟩
    intro old oldMem _
    obtain ⟨new, newMem, keeps⟩ := kept.kept old oldMem
    exact ⟨new, newMem, keeps.key, keeps.submission⟩

namespace BuildRun

variable {allowed : BuildStore → BuildStep → Prop} {first store later : BuildStore}

theorem classified (run : BuildRun episodes contentHash allowed first store)
    (start : BuildsClassified episodes contentHash first.tables) :
    BuildsClassified episodes contentHash store.tables := by
  induction run with
  | start => exact start
  | step run step classifies isAllowed ih => exact (performBuildStep_stays classifies ih).1

theorem decisionsStay (run : BuildRun episodes contentHash allowed first store)
    (start : BuildsClassified episodes contentHash first.tables) :
    DecisionsStay first.tables store.tables := by
  induction run with
  | start => exact DecisionsStay.refl _
  | step run step classifies isAllowed ih =>
      exact ih.trans (performBuildStep_stays classifies (run.classified start)).2

theorem writtenStay (run : BuildRun episodes contentHash KeepsDecisions first store)
    (start : BuildsClassified episodes contentHash first.tables) :
    WrittenStay first store ∧ first.written ⊆ store.written := by
  induction run with
  | start => exact ⟨WrittenStay.refl _, fun _ isWritten => isWritten⟩
  | step run step classifies isAllowed ih =>
      obtain ⟨stay, grows⟩ := performBuildStep_written (run.classified start) isAllowed
      refine ⟨?_, fun _ isWritten => grows (ih.2 isWritten)⟩
      intro old oldMem isWritten
      obtain ⟨middle, middleMem, sameKey, sameSubmission⟩ := ih.1 old oldMem isWritten
      obtain ⟨new, newMem, newKey, newSubmission⟩ :=
        stay middle middleMem (sameSubmission ▸ ih.2 isWritten)
      exact ⟨new, newMem, newKey.trans sameKey, newSubmission.trans sameSubmission⟩

end BuildRun

/-- The first durable decision of every Claim is kept from one store of a run to
a later one. -/
structure FirstDecisionsKept (episodes : Episodes) (contentHash : CheckpointClaimId → String)
    (allowed : BuildStore → BuildStep → Prop) (store later : BuildStore) : Prop where
  succeeds : ∀ newIds episodeId items duplicates,
    IsClassification episodes contentHash store.tables newIds episodeId items duplicates →
      allowed store (.prepare newIds episodeId items duplicates) →
        ∃ answer, prepareCandidateBuildWithDuplicates episodes.find? store.tables newIds
          episodeId items duplicates = .ok answer
  decisions : DecisionsStay store.tables later.tables
  disjoint : ∀ item ∈ later.tables.candidateBuildItem,
    ∀ duplicate ∈ later.tables.candidateBuildDuplicate, item.key ≠ duplicate.key
  written : WrittenStay store later

/-- In every run whose preparations reclassify no Claim that is finalized or may
be in Git, every call is accepted, finalized items and duplicates stay, no Claim
is both, and no written submission changes. -/
theorem candidateBuild_keeps_first_decisions {store later : BuildStore}
    (run : BuildRun episodes contentHash KeepsDecisions .empty store)
    (more : BuildRun episodes contentHash KeepsDecisions store later) :
    FirstDecisionsKept episodes contentHash KeepsDecisions store later := by
  have classified := run.classified BuildsClassified.empty
  refine ⟨?_, more.decisionsStay classified, (more.classified classified).disjoint,
    (more.writtenStay classified).1⟩
  intro newIds episodeId items duplicates isClassification keeps
  exact prepare_succeeds isClassification classified
    fun item itemMem reclassified => (keeps item itemMem reclassified).1

/-! ### A closed Episode with one Claim -/

section Sample

def sampleEpisode : WorkEpisodeView where
  ownership := ⟨⟨1⟩, ⟨2⟩, ⟨3⟩⟩
  status := .closed ⟨4⟩
  claims := [(⟨4⟩, ⟨5⟩)]
  claimsNodup := by decide

def sampleEpisodes : Episodes :=
  ⟨[sampleEpisode], by decide⟩

def sampleBuildIds (build submission : Nat) : NewBuildIds :=
  ⟨⟨BitVec.ofNat 128 build⟩, fun ordinal => ⟨BitVec.ofNat 128 (submission + ordinal)⟩⟩

def sampleItem : CandidateBuildItemPreparation :=
  ⟨⟨4⟩, ⟨5⟩, some "sha256:draft", .prepared, none⟩

def sampleDuplicate : CandidateBuildDuplicatePreparation :=
  ⟨⟨4⟩, ⟨5⟩, ⟨6⟩, 9000⟩

def preparedStore : BuildStore :=
  performBuildStep sampleEpisodes .empty (.prepare (sampleBuildIds 10 20) ⟨1⟩ [sampleItem] [])

def writtenStore : BuildStore :=
  performBuildStep sampleEpisodes preparedStore (.submit ⟨20⟩)

def finalizedStore : BuildStore :=
  performBuildStep sampleEpisodes writtenStore
    (.record ⟨10⟩ ⟨20⟩ .created (some ⟨7⟩) (some ⟨8⟩) none 1000)

private abbrev sampleHash : CheckpointClaimId → String := fun _ => "sha256:draft"

private theorem sampleItem_classifies {tables : CandidateTables} {build submission : Nat}
    (freshSubmission : ∀ row ∈ tables.candidateBuildItem,
      row.submissionId ≠ ⟨BitVec.ofNat 128 submission⟩)
    (freshBuild : ∀ row ∈ tables.candidateBuild, row.buildId ≠ ⟨BitVec.ofNat 128 build⟩) :
    IsClassification sampleEpisodes sampleHash tables (sampleBuildIds build submission) ⟨1⟩
      [sampleItem] [] where
  valid := by decide
  closed := ⟨sampleEpisode, rfl, ⟨⟨4⟩, rfl⟩, by decide⟩
  sameHash := by simp [sampleItem]
  inRange := by simp
  fresh := by
    refine ⟨?_, ?_, freshBuild⟩
    · intro first second before inCount
      rw [List.length_singleton] at inCount
      omega
    · intro row rowMem ordinal inCount
      rw [List.length_singleton] at inCount
      obtain rfl : ordinal = 0 := by omega
      exact freshSubmission row rowMem

private theorem sampleDuplicate_classifies {tables : CandidateTables} {build submission : Nat}
    (freshBuild : ∀ row ∈ tables.candidateBuild, row.buildId ≠ ⟨BitVec.ofNat 128 build⟩) :
    IsClassification sampleEpisodes sampleHash tables (sampleBuildIds build submission) ⟨1⟩ []
      [sampleDuplicate] where
  valid := by decide
  closed := ⟨sampleEpisode, rfl, ⟨⟨4⟩, rfl⟩, by decide⟩
  sameHash := by simp
  inRange := by simp [sampleDuplicate]
  fresh := by
    refine ⟨?_, ?_, freshBuild⟩
    · intro first second before inCount
      rw [List.length_nil] at inCount
      omega
    · intro row rowMem ordinal inCount
      rw [List.length_nil] at inCount
      omega

private theorem preparedStore_run (allowed : BuildStore → BuildStep → Prop)
    (isAllowed : allowed .empty (.prepare (sampleBuildIds 10 20) ⟨1⟩ [sampleItem] [])) :
    BuildRun sampleEpisodes sampleHash allowed .empty preparedStore :=
  .step .start _ (sampleItem_classifies (fun _ rowMem => absurd rowMem (Table.not_mem_empty _))
    (fun _ rowMem => absurd rowMem (Table.not_mem_empty _))) isAllowed

private theorem finalizedStore_run (allowed : BuildStore → BuildStep → Prop)
    (isAllowed : allowed .empty (.prepare (sampleBuildIds 10 20) ⟨1⟩ [sampleItem] []))
    (submitAllowed : allowed preparedStore (.submit ⟨20⟩))
    (recordAllowed : allowed writtenStore
      (.record ⟨10⟩ ⟨20⟩ .created (some ⟨7⟩) (some ⟨8⟩) none 1000)) :
    BuildRun sampleEpisodes sampleHash allowed .empty finalizedStore :=
  .step (.step (preparedStore_run allowed isAllowed) (.submit ⟨20⟩) trivial submitAllowed)
    (.record ⟨10⟩ ⟨20⟩ .created (some ⟨7⟩) (some ⟨8⟩) none 1000) trivial recordAllowed

/-- Replaying the same Episode after its result was recorded is accepted and
keeps the Candidate. -/
theorem candidateBuild_keeps_first_decisions_sample :
    FirstDecisionsKept sampleEpisodes sampleHash KeepsDecisions finalizedStore
      (performBuildStep sampleEpisodes finalizedStore
        (.prepare (sampleBuildIds 11 21) ⟨1⟩ [sampleItem] [])) := by
  apply candidateBuild_keeps_first_decisions
  · exact finalizedStore_run _ (fun _ itemMem => absurd itemMem (Table.not_mem_empty _)) trivial
      trivial
  · refine .step .start _ (sampleItem_classifies ?_ ?_) ?_
    · have fresh : finalizedStore.tables.candidateBuildItem.rows.all
          (fun row => row.submissionId ≠ ⟨BitVec.ofNat 128 21⟩) = true := by decide
      exact fun row rowMem => of_decide_eq_true (List.all_eq_true.mp fresh row rowMem)
    · have fresh : finalizedStore.tables.candidateBuild.rows.all
          (fun row => row.buildId ≠ ⟨BitVec.ofNat 128 11⟩) = true := by decide
      exact fun row rowMem => of_decide_eq_true (List.all_eq_true.mp fresh row rowMem)
    · rintro item _ ⟨_, duplicate, duplicateMem, _⟩
      exact absurd duplicateMem List.not_mem_nil

/-- A call that classifies a finalized Claim as a duplicate is refused, and one
that so classifies a Claim already written to Git loses its submission. -/
theorem candidateBuild_reclassification :
    (BuildRun sampleEpisodes sampleHash (fun _ _ => True) .empty finalizedStore ∧
      ¬ FirstDecisionsKept sampleEpisodes sampleHash (fun _ _ => True) finalizedStore
        finalizedStore) ∧
    (BuildRun sampleEpisodes sampleHash (fun _ _ => True) .empty writtenStore ∧
      ∃ later, BuildRun sampleEpisodes sampleHash (fun _ _ => True) writtenStore later ∧
        ¬ FirstDecisionsKept sampleEpisodes sampleHash (fun _ _ => True) writtenStore later) := by
  have freshFinalized : finalizedStore.tables.candidateBuild.rows.all
      (fun row => row.buildId ≠ ⟨BitVec.ofNat 128 11⟩) = true := by decide
  have freshWritten : writtenStore.tables.candidateBuild.rows.all
      (fun row => row.buildId ≠ ⟨BitVec.ofNat 128 11⟩) = true := by decide
  refine ⟨⟨finalizedStore_run _ trivial trivial trivial, ?_⟩,
    .step (preparedStore_run _ trivial) (.submit ⟨20⟩) trivial trivial,
    performBuildStep sampleEpisodes writtenStore
      (.prepare (sampleBuildIds 11 21) ⟨1⟩ [] [sampleDuplicate]),
    .step .start _ (sampleDuplicate_classifies fun row rowMem =>
      of_decide_eq_true (List.all_eq_true.mp freshWritten row rowMem)) trivial, ?_⟩
  · intro kept
    obtain ⟨answer, accepted⟩ := kept.succeeds (sampleBuildIds 11 21) ⟨1⟩ [] [sampleDuplicate]
      (sampleDuplicate_classifies fun row rowMem =>
        of_decide_eq_true (List.all_eq_true.mp freshFinalized row rowMem)) trivial
    have refused : (prepareCandidateBuildWithDuplicates sampleEpisodes.find?
        finalizedStore.tables (sampleBuildIds 11 21) ⟨1⟩ [] [sampleDuplicate]).isOk = false := by
      decide
    rw [accepted] at refused
    cases refused
  · intro kept
    let item : CandidateBuildItemRow :=
      ⟨⟨10⟩, 0, ⟨4⟩, ⟨5⟩, ⟨20⟩, .prepared "sha256:draft"⟩
    have itemMem : item ∈ writtenStore.tables.candidateBuildItem.rows := by decide
    have isWritten : item.submissionId ∈ writtenStore.written := by decide
    obtain ⟨new, newMem, _⟩ := kept.written item itemMem isWritten
    have released : (performBuildStep sampleEpisodes writtenStore (.prepare (sampleBuildIds 11 21)
        ⟨1⟩ [] [sampleDuplicate])).tables.candidateBuildItem.rows = [] := by decide
    have newMem : new ∈ (performBuildStep sampleEpisodes writtenStore (.prepare
      (sampleBuildIds 11 21) ⟨1⟩ [] [sampleDuplicate])).tables.candidateBuildItem.rows := newMem
    rw [released] at newMem
    exact List.not_mem_nil newMem

end Sample

end SharedContext
