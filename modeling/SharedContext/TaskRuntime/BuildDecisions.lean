import SharedContext.TaskRuntime.BuildItems

/-!
# Build decisions over a run

Preparations, Git submissions and results follow each other in any order.  In
every Build the Claims of the Episode stay divided between items and
duplicates; a finalized item and a recorded duplicate never change.  A
preparation that reclassifies no Claim whose item is finalized, or may have
been written to Git, succeeds and keeps every submission.
-/

namespace SharedContext

variable {buildId : CandidateBuildId} {newIds : NewBuildIds}
  {items : List CandidateBuildItemPreparation}
  {duplicates : List CandidateBuildDuplicatePreparation} {tables after : CandidateTables}

/-! ### Merging a classification -/

theorem mem_releaseDeduplicatedItems {row : CandidateBuildItemRow} :
    row ∈ (releaseDeduplicatedItems tables buildId duplicates).candidateBuildItem ↔
      row ∈ tables.candidateBuildItem ∧
        ¬ (row.buildId = buildId ∧ row.claimId ∈ duplicates.map (·.claimId) ∧
          row.state.candidateId = none) := by
  simp only [releaseDeduplicatedItems, Table.mem_deleteWhere, decide_eq_false_iff_not]

/-- What merging a classification into a Build does to the tables. -/
structure ClassificationMerged (buildId : CandidateBuildId)
    (items : List CandidateBuildItemPreparation)
    (duplicates : List CandidateBuildDuplicatePreparation) (before after : CandidateTables) :
    Prop where
  kept : ∀ old ∈ before.candidateBuildItem,
    (∃ new ∈ after.candidateBuildItem, PreparesItem old new) ∨
      old.state.status.isFinalized = false ∧
        ∃ duplicate ∈ duplicates, old.key = (buildId, duplicate.claimId)
  origin : ∀ new ∈ after.candidateBuildItem,
    (∃ old ∈ before.candidateBuildItem, PreparesItem old new ∧
      ∀ duplicate ∈ duplicates, old.key = (buildId, duplicate.claimId) →
        duplicate.claimId ∈ submittedClaims before buildId) ∨
      new.buildId = buildId ∧ new.claimId ∉ persistedDuplicates before buildId ∧
        ∃ item ∈ items, item.checkpointId = new.checkpointId ∧ item.claimId = new.claimId
  hashes : ∀ new ∈ after.candidateBuildItem,
    (∃ old ∈ before.candidateBuildItem, old.claimId = new.claimId ∧
        old.state.contentHash = new.state.contentHash) ∨
      ∃ item ∈ items, item.claimId = new.claimId ∧ item.contentHash = new.state.contentHash
  itemsPresent : ∀ item ∈ items, item.claimId ∉ persistedDuplicates before buildId →
    ∃ new ∈ after.candidateBuildItem, new.key = (buildId, item.claimId)
  duplicatesKept : ∀ old ∈ before.candidateBuildDuplicate, old ∈ after.candidateBuildDuplicate
  duplicatesOrigin : ∀ new ∈ after.candidateBuildDuplicate,
    new ∈ before.candidateBuildDuplicate ∨
      new.buildId = buildId ∧ new.claimId ∉ submittedClaims before buildId ∧
        ∃ duplicate ∈ duplicates, duplicate.checkpointId = new.checkpointId ∧
          duplicate.claimId = new.claimId
  duplicatesPresent : ∀ duplicate ∈ duplicates, duplicate.similarityBasisPoints ≤ 10000 →
    duplicate.claimId ∉ submittedClaims before buildId →
      ∃ new ∈ after.candidateBuildDuplicate, new.key = (buildId, duplicate.claimId)
  unique : SubmissionsUnique before → SubmissionsUnique after
  frame : after = { before with
    candidateBuildItem := after.candidateBuildItem
    candidateBuildDuplicate := after.candidateBuildDuplicate }

theorem mergeClassification_ok
    (ran : mergeClassification tables buildId newIds items duplicates = .ok after) :
    ClassificationMerged buildId items duplicates tables after := by
  simp only [mergeClassification, Result.bind_eq_ok, Result.pure_eq_ok] at ran
  obtain ⟨middle, upserted, made⟩ := ran
  have merged := upsertCandidateBuildItems_ok upserted
  have recorded := insertCandidateBuildDuplicates_recorded middle buildId
    (duplicates.filter fun duplicate => duplicate.claimId ∉ submittedClaims tables buildId)
  rw [made] at recorded
  have middleDuplicates : middle.candidateBuildDuplicate = tables.candidateBuildDuplicate := by
    rw [merged.frame]
    rfl
  have afterItems : after.candidateBuildItem = middle.candidateBuildItem := by
    rw [recorded.frame]
  refine ⟨?_, ?_, ?_, ?_, ?_, ?_, ?_, ?_, ?_⟩
  · intro old oldMem
    by_cases released : old.buildId = buildId ∧
        old.claimId ∈ (duplicates.filter fun duplicate =>
          duplicate.claimId ∉ submittedClaims tables buildId).map (·.claimId) ∧
        old.state.candidateId = none
    · obtain ⟨sameBuild, inDuplicates, noCandidate⟩ := released
      obtain ⟨duplicate, duplicateMem, sameClaim⟩ := List.mem_map.mp inDuplicates
      exact Or.inr ⟨CandidateBuildItemState.candidateId_eq_none.mp noCandidate, duplicate,
        (List.mem_filter.mp duplicateMem).1, Prod.ext sameBuild sameClaim.symm⟩
    · obtain ⟨new, newMem, prepares⟩ :=
        merged.kept old (mem_releaseDeduplicatedItems.mpr ⟨oldMem, released⟩)
      exact Or.inl ⟨new, afterItems ▸ newMem, prepares⟩
  · intro new newMem
    rw [afterItems] at newMem
    rcases merged.origin new newMem with ⟨old, oldMem, prepares⟩ | ⟨sameBuild, fromItem⟩
    · obtain ⟨stored, notReleased⟩ := mem_releaseDeduplicatedItems.mp oldMem
      refine Or.inl ⟨old, stored, prepares, ?_⟩
      intro duplicate duplicateMem keyEq
      by_contra notSubmitted
      obtain ⟨sameBuild, sameClaim⟩ := Prod.ext_iff.mp keyEq
      -- An item that was not released although its Claim is a duplicate is finalized.
      have finalized : ¬ old.state.candidateId = none := fun noCandidate =>
        notReleased ⟨sameBuild, List.mem_map.mpr ⟨duplicate, List.mem_filter.mpr
          ⟨duplicateMem, decide_eq_true notSubmitted⟩, sameClaim.symm⟩, noCandidate⟩
      rw [CandidateBuildItemState.candidateId_eq_none] at finalized
      exact notSubmitted (mem_submittedClaims.mpr
        ⟨old, stored, keyEq, Bool.eq_true_of_not_eq_false finalized⟩)
    · obtain ⟨item, itemMem, sameCheckpoint, sameClaim⟩ := fromItem
      obtain ⟨itemGiven, notRecorded⟩ := List.mem_filter.mp itemMem
      exact Or.inr ⟨sameBuild, sameClaim ▸ of_decide_eq_true notRecorded, item, itemGiven,
        sameCheckpoint, sameClaim⟩
  · intro new newMem
    rw [afterItems] at newMem
    rcases merged.hashes new newMem with ⟨old, oldMem, sameHash⟩ | ⟨item, itemMem, sameHash⟩
    · exact Or.inl ⟨old, (mem_releaseDeduplicatedItems.mp oldMem).1, sameHash⟩
    · exact Or.inr ⟨item, (List.mem_filter.mp itemMem).1, sameHash⟩
  · intro item itemMem notRecorded
    rw [afterItems]
    exact merged.present item (List.mem_filter.mpr ⟨itemMem, decide_eq_true notRecorded⟩)
  · intro old oldMem
    exact recorded.kept old (middleDuplicates ▸ oldMem)
  · intro new newMem
    rcases recorded.origin new newMem with stored | ⟨sameBuild, duplicate, duplicateMem, given⟩
    · exact Or.inl (middleDuplicates ▸ stored)
    · obtain ⟨duplicateGiven, notSubmitted⟩ := List.mem_filter.mp duplicateMem
      exact Or.inr ⟨sameBuild, given.2 ▸ of_decide_eq_true notSubmitted, duplicate,
        duplicateGiven, given⟩
  · intro duplicate duplicateMem inRange notSubmitted
    exact recorded.present duplicate
      (List.mem_filter.mpr ⟨duplicateMem, decide_eq_true notSubmitted⟩) inRange
  · intro unique
    have middleUnique := merged.unique fun first firstMem second secondMem =>
      unique first (mem_releaseDeduplicatedItems.mp firstMem).1 second
        (mem_releaseDeduplicatedItems.mp secondMem).1
    intro first firstMem second secondMem
    rw [afterItems] at firstMem secondMem
    exact middleUnique first firstMem second secondMem
  · have recordedFrame := recorded.frame
    rw [merged.frame] at recordedFrame
    rw [recordedFrame]
    rfl

/-! ### The invariant -/

/-- The items and duplicates of a Build divide the Claims of its Episode. -/
structure ClassifiedBuild (tables : CandidateTables) (buildId : CandidateBuildId)
    (claims : List (AgentCheckpointId × CheckpointClaimId)) : Prop where
  items : ∀ item ∈ tables.candidateBuildItem, item.buildId = buildId →
    (item.checkpointId, item.claimId) ∈ claims
  duplicates : ∀ duplicate ∈ tables.candidateBuildDuplicate, duplicate.buildId = buildId →
    (duplicate.checkpointId, duplicate.claimId) ∈ claims
  covered : ∀ claim ∈ claims,
    (∃ item ∈ tables.candidateBuildItem, item.key = (buildId, claim.2)) ∨
      ∃ duplicate ∈ tables.candidateBuildDuplicate, duplicate.key = (buildId, claim.2)

/-- The Episodes by their identity. -/
abbrev Episodes := Table WorkEpisodeView (fun episode => episode.ownership.episodeId)

variable {episodes : Episodes} {contentHash : CheckpointClaimId → String}

/-- What every transaction leaves behind, for every Build but perhaps one. -/
structure BuildsConsistent (contentHash : CheckpointClaimId → String)
    (tables : CandidateTables) : Prop where
  itemsOwned : ∀ item ∈ tables.candidateBuildItem,
    ∃ build ∈ tables.candidateBuild, build.buildId = item.buildId
  duplicatesOwned : ∀ duplicate ∈ tables.candidateBuildDuplicate,
    ∃ build ∈ tables.candidateBuild, build.buildId = duplicate.buildId
  oneBuild : ∀ first ∈ tables.candidateBuild, ∀ second ∈ tables.candidateBuild,
    first.sourceEpisode.episodeId = second.sourceEpisode.episodeId → first = second
  disjoint : ∀ item ∈ tables.candidateBuildItem,
    ∀ duplicate ∈ tables.candidateBuildDuplicate, item.key ≠ duplicate.key
  unique : SubmissionsUnique tables
  hashes : ∀ item ∈ tables.candidateBuildItem, item.state.contentHash = none ∨
    item.state.contentHash = some (contentHash item.claimId)

/-- The Build of this row is classified, and its Episode is known. -/
def BuildClassified (episodes : Episodes) (tables : CandidateTables)
    (build : CandidateBuildRow) : Prop :=
  ∃ episode ∈ episodes, episode.ownership.episodeId = build.sourceEpisode.episodeId ∧
    ClassifiedBuild tables build.buildId episode.claims

structure BuildsClassified (episodes : Episodes) (contentHash : CheckpointClaimId → String)
    (tables : CandidateTables) : Prop extends BuildsConsistent contentHash tables where
  builds : ∀ build ∈ tables.candidateBuild, BuildClassified episodes tables build

/-- The tables once the Build of an Episode exists, before its classification. -/
structure BuildOpened (episodes : Episodes) (contentHash : CheckpointClaimId → String)
    (episode : WorkEpisodeView) (buildId : CandidateBuildId) (tables : CandidateTables) : Prop
    extends BuildsConsistent contentHash tables where
  opened : ∃ build ∈ tables.candidateBuild, build.buildId = buildId ∧
    build.sourceEpisode.episodeId = episode.ownership.episodeId
  others : ∀ build ∈ tables.candidateBuild, build.buildId ≠ buildId →
    BuildClassified episodes tables build
  placed : ClassifiedBuild tables buildId episode.claims ∨
    (∀ item ∈ tables.candidateBuildItem, item.buildId ≠ buildId) ∧
      ∀ duplicate ∈ tables.candidateBuildDuplicate, duplicate.buildId ≠ buildId

theorem BuildsClassified.empty : BuildsClassified episodes contentHash .empty := by
  refine ⟨⟨?_, ?_, ?_, ?_, ?_, ?_⟩, ?_⟩
  all_goals exact fun _ rowMem => absurd rowMem (Table.not_mem_empty _)

theorem readCandidateBuildId_eq_some {episodeId : WorkEpisodeId}
    (found : readCandidateBuildId tables episodeId = some buildId) :
    ∃ build ∈ tables.candidateBuild, build.buildId = buildId ∧
      build.sourceEpisode.episodeId = episodeId := by
  obtain ⟨build, isBuild, sameId⟩ := Option.map_eq_some_iff.mp found
  have sameEpisode := List.find?_some isBuild
  exact ⟨build, List.mem_of_find?_eq_some isBuild, sameId, of_decide_eq_true sameEpisode⟩

theorem readCandidateBuildId_eq_none {episodeId : WorkEpisodeId}
    (absent : readCandidateBuildId tables episodeId = none) :
    ∀ build ∈ tables.candidateBuild, build.sourceEpisode.episodeId ≠ episodeId := by
  intro build buildMem
  have unmatched := List.find?_eq_none.mp (Option.map_eq_none_iff.mp absent) build buildMem
  exact of_decide_eq_false (Bool.eq_false_of_not_eq_true unmatched)

theorem requireCandidateBuild_opened {episode : WorkEpisodeView}
    {finalCheckpointId : AgentCheckpointId} {opened : CandidateTables}
    (ran : requireCandidateBuild tables newIds episode finalCheckpointId =
      .ok (opened, buildId))
    (episodeMem : episode ∈ episodes) (classified : BuildsClassified episodes contentHash tables) :
    BuildOpened episodes contentHash episode buildId opened ∧
      opened.candidateBuildItem = tables.candidateBuildItem ∧
      opened.candidateBuildDuplicate = tables.candidateBuildDuplicate := by
  unfold requireCandidateBuild at ran
  split at ran
  case h_1 found isFound =>
    cases ran
    obtain ⟨build, buildMem, sameId, sameEpisode⟩ := readCandidateBuildId_eq_some isFound
    refine ⟨⟨classified.toBuildsConsistent, ⟨build, buildMem, sameId, sameEpisode⟩, ?_, ?_⟩,
      rfl, rfl⟩
    · exact fun other otherMem _ => classified.builds other otherMem
    · obtain ⟨stored, storedMem, storedEpisode, storedClassified⟩ :=
        classified.builds build buildMem
      have sameView : stored = episode :=
        Table.eq_of_key storedMem episodeMem (storedEpisode.trans sameEpisode)
      subst sameView
      exact Or.inl (sameId ▸ storedClassified)
  case h_2 isAbsent =>
    split at ran
    case h_1 inserted insertEq =>
      cases ran
      have fresh := (Table.insert_eq_some.mp insertEq).1
      have itemsFresh : ∀ item ∈ tables.candidateBuildItem, item.buildId ≠ newIds.buildId := by
        intro item itemMem sameId
        obtain ⟨owner, ownerMem, ownerId⟩ := classified.itemsOwned item itemMem
        exact fresh owner ownerMem (ownerId.trans sameId)
      have duplicatesFresh : ∀ duplicate ∈ tables.candidateBuildDuplicate,
          duplicate.buildId ≠ newIds.buildId := by
        intro duplicate duplicateMem sameId
        obtain ⟨owner, ownerMem, ownerId⟩ := classified.duplicatesOwned duplicate duplicateMem
        exact fresh owner ownerMem (ownerId.trans sameId)
      have stays : ∀ build ∈ tables.candidateBuild, build ∈ inserted :=
        fun build buildMem => (Table.mem_insert insertEq).mpr (Or.inl buildMem)
      refine ⟨⟨⟨?_, ?_, ?_, classified.disjoint, classified.unique, classified.hashes⟩, ?_, ?_,
        Or.inr ⟨itemsFresh, duplicatesFresh⟩⟩, rfl, rfl⟩
      · intro item itemMem
        obtain ⟨owner, ownerMem, ownerId⟩ := classified.itemsOwned item itemMem
        exact ⟨owner, stays owner ownerMem, ownerId⟩
      · intro duplicate duplicateMem
        obtain ⟨owner, ownerMem, ownerId⟩ := classified.duplicatesOwned duplicate duplicateMem
        exact ⟨owner, stays owner ownerMem, ownerId⟩
      · intro first firstMem second secondMem sameEpisode
        have unused := readCandidateBuildId_eq_none isAbsent
        rcases (Table.mem_insert insertEq).mp firstMem with firstOld | rfl
        · rcases (Table.mem_insert insertEq).mp secondMem with secondOld | rfl
          · exact classified.oneBuild first firstOld second secondOld sameEpisode
          · exact absurd sameEpisode (unused first firstOld)
        · rcases (Table.mem_insert insertEq).mp secondMem with secondOld | rfl
          · exact absurd sameEpisode.symm (unused second secondOld)
          · rfl
      · exact ⟨_, (Table.mem_insert insertEq).mpr (Or.inr rfl), rfl, rfl⟩
      · intro build buildMem isOther
        rcases (Table.mem_insert insertEq).mp buildMem with stored | rfl
        · obtain ⟨view, viewMem, viewEpisode, viewClassified⟩ := classified.builds build stored
          exact ⟨view, viewMem, viewEpisode, viewClassified.items, viewClassified.duplicates,
            viewClassified.covered⟩
        · exact absurd rfl isOther
    case h_2 => cases ran

section Merging

variable {episode : WorkEpisodeView}
  (opened : BuildOpened episodes contentHash episode buildId tables)
  (merged : ClassificationMerged buildId items duplicates tables after)
  (covered : validateBuildClaimCoverage episode items duplicates = .ok ())
  (inRange : ∀ duplicate ∈ duplicates, duplicate.similarityBasisPoints ≤ 10000)

include opened merged covered

theorem merged_disjoint : ∀ item ∈ after.candidateBuildItem,
    ∀ duplicate ∈ after.candidateBuildDuplicate, item.key ≠ duplicate.key := by
  intro item itemMem duplicate duplicateMem sameKey
  rcases merged.origin item itemMem with ⟨old, oldMem, prepares, notReleased⟩ | isNew
  · rcases merged.duplicatesOrigin duplicate duplicateMem with stored | isAdded
    · exact opened.disjoint old oldMem duplicate stored (prepares.key.symm.trans sameKey)
    · -- A new duplicate has no item left, unless that item was finalized.
      obtain ⟨sameBuild, notSubmitted, given, givenMem, _, sameClaim⟩ := isAdded
      have oldKey : old.key = (buildId, given.claimId) :=
        (prepares.key.symm.trans sameKey).trans (Prod.ext sameBuild sameClaim.symm)
      exact notSubmitted (sameClaim ▸ notReleased given givenMem oldKey)
  · obtain ⟨itemBuild, notRecorded, preparation, preparationMem, _, itemClaim⟩ := isNew
    have sameClaim : item.claimId = duplicate.claimId := congrArg Prod.snd sameKey
    rcases merged.duplicatesOrigin duplicate duplicateMem with stored | isAdded
    · have sameBuild : item.buildId = duplicate.buildId := congrArg Prod.fst sameKey
      exact notRecorded (mem_persistedDuplicates.mpr ⟨duplicate, stored,
        Prod.ext (sameBuild.symm.trans itemBuild) sameClaim.symm⟩)
    · obtain ⟨_, _, given, givenMem, _, givenClaim⟩ := isAdded
      exact claim_not_both covered preparationMem givenMem
        (itemClaim.trans (sameClaim.trans givenClaim.symm))

include inRange in
theorem merged_classified : ClassifiedBuild after buildId episode.claims where
  items := by
    intro item itemMem sameBuild
    rcases merged.origin item itemMem with ⟨old, oldMem, prepares, _⟩ | isNew
    · obtain ⟨buildEq, claimEq⟩ := Prod.ext_iff.mp prepares.key
      have oldBuild : old.buildId = buildId := buildEq.symm.trans sameBuild
      rcases opened.placed with classified | ⟨itemsFresh, _⟩
      · rw [prepares.checkpoint, show item.claimId = old.claimId from claimEq]
        exact classified.items old oldMem oldBuild
      · exact absurd oldBuild (itemsFresh old oldMem)
    · obtain ⟨_, _, preparation, preparationMem, sameCheckpoint, sameClaim⟩ := isNew
      rw [← sameCheckpoint, ← sameClaim]
      exact mem_claims_of_item covered preparationMem
  duplicates := by
    intro duplicate duplicateMem sameBuild
    rcases merged.duplicatesOrigin duplicate duplicateMem with stored | isAdded
    · rcases opened.placed with classified | ⟨_, duplicatesFresh⟩
      · exact classified.duplicates duplicate stored sameBuild
      · exact absurd sameBuild (duplicatesFresh duplicate stored)
    · obtain ⟨_, _, given, givenMem, sameCheckpoint, sameClaim⟩ := isAdded
      rw [← sameCheckpoint, ← sameClaim]
      exact mem_claims_of_duplicate covered givenMem
  covered := by
    intro claim claimMem
    rcases classified_of_mem_claims covered claimMem with fromItem | fromDuplicate
    · obtain ⟨item, itemMem, rfl⟩ := fromItem
      by_cases recorded : item.claimId ∈ persistedDuplicates tables buildId
      · obtain ⟨row, rowMem, rowKey⟩ := mem_persistedDuplicates.mp recorded
        exact Or.inr ⟨row, merged.duplicatesKept row rowMem, rowKey⟩
      · exact Or.inl (merged.itemsPresent item itemMem recorded)
    · obtain ⟨duplicate, duplicateMem, rfl⟩ := fromDuplicate
      by_cases submitted : duplicate.claimId ∈ submittedClaims tables buildId
      · obtain ⟨row, rowMem, rowKey, finalized⟩ := mem_submittedClaims.mp submitted
        rcases merged.kept row rowMem with ⟨new, newMem, prepares⟩ | ⟨open_, _⟩
        · exact Or.inl ⟨new, newMem, prepares.key.trans rowKey⟩
        · rw [finalized] at open_
          cases open_
      · exact Or.inr (merged.duplicatesPresent duplicate duplicateMem
          (inRange duplicate duplicateMem) submitted)

omit opened covered in
theorem merged_others {other : CandidateBuildId} (isOther : other ≠ buildId)
    {claims : List (AgentCheckpointId × CheckpointClaimId)}
    (classified : ClassifiedBuild tables other claims) : ClassifiedBuild after other claims where
  items := by
    intro item itemMem sameBuild
    rcases merged.origin item itemMem with ⟨old, oldMem, prepares, _⟩ | ⟨newBuild, _⟩
    · obtain ⟨buildEq, claimEq⟩ := Prod.ext_iff.mp prepares.key
      rw [prepares.checkpoint, show item.claimId = old.claimId from claimEq]
      exact classified.items old oldMem (buildEq.symm.trans sameBuild)
    · exact absurd (sameBuild.symm.trans newBuild) isOther
  duplicates := by
    intro duplicate duplicateMem sameBuild
    rcases merged.duplicatesOrigin duplicate duplicateMem with stored | ⟨newBuild, _⟩
    · exact classified.duplicates duplicate stored sameBuild
    · exact absurd (sameBuild.symm.trans newBuild) isOther
  covered := by
    intro claim claimMem
    rcases classified.covered claim claimMem with ⟨item, itemMem, keyEq⟩ | fromDuplicate
    · rcases merged.kept item itemMem with ⟨new, newMem, prepares⟩ | ⟨_, duplicate, _, released⟩
      · exact Or.inl ⟨new, newMem, prepares.key.trans keyEq⟩
      · exact absurd (congrArg Prod.fst (keyEq.symm.trans released)) isOther
    · obtain ⟨duplicate, duplicateMem, keyEq⟩ := fromDuplicate
      exact Or.inr ⟨duplicate, merged.duplicatesKept duplicate duplicateMem, keyEq⟩

include inRange in
theorem mergeClassification_classified
    (sameHash : ∀ item ∈ items, item.contentHash = none ∨
      item.contentHash = some (contentHash item.claimId))
    (episodeMem : episode ∈ episodes) : BuildsClassified episodes contentHash after := by
  have buildsEq : after.candidateBuild = tables.candidateBuild := by rw [merged.frame]
  refine ⟨⟨?_, ?_, ?_, merged_disjoint opened merged covered, merged.unique opened.unique, ?_⟩,
    ?_⟩
  · intro item itemMem
    rw [buildsEq]
    rcases merged.origin item itemMem with ⟨old, oldMem, prepares, _⟩ | ⟨newBuild, _⟩
    · obtain ⟨owner, ownerMem, ownerId⟩ := opened.itemsOwned old oldMem
      exact ⟨owner, ownerMem, ownerId.trans (congrArg Prod.fst prepares.key).symm⟩
    · obtain ⟨build, buildMem, sameId, _⟩ := opened.opened
      exact ⟨build, buildMem, sameId.trans newBuild.symm⟩
  · intro duplicate duplicateMem
    rw [buildsEq]
    rcases merged.duplicatesOrigin duplicate duplicateMem with stored | ⟨newBuild, _⟩
    · exact opened.duplicatesOwned duplicate stored
    · obtain ⟨build, buildMem, sameId, _⟩ := opened.opened
      exact ⟨build, buildMem, sameId.trans newBuild.symm⟩
  · rw [buildsEq]
    exact opened.oneBuild
  · intro item itemMem
    rcases merged.hashes item itemMem with ⟨old, oldMem, sameClaim, oldHash⟩ | isNew
    · rw [← oldHash, ← sameClaim]
      exact opened.hashes old oldMem
    · obtain ⟨preparation, preparationMem, sameClaim, newHash⟩ := isNew
      rw [← newHash, ← sameClaim]
      exact sameHash preparation preparationMem
  · intro build buildMem
    rw [buildsEq] at buildMem
    by_cases isOpened : build.buildId = buildId
    · obtain ⟨owner, ownerMem, ownerId, ownerEpisode⟩ := opened.opened
      have buildEq : build = owner :=
        Table.eq_of_key buildMem ownerMem (isOpened.trans ownerId.symm)
      subst buildEq
      refine ⟨episode, episodeMem, ownerEpisode.symm, ?_⟩
      rw [isOpened]
      exact merged_classified opened merged covered inRange
    · obtain ⟨view, viewMem, viewEpisode, classified⟩ := opened.others build buildMem isOpened
      exact ⟨view, viewMem, viewEpisode, merged_others merged isOpened classified⟩

end Merging

/-! ### When a preparation succeeds -/

theorem released_claims_perm {episode : WorkEpisodeView}
    (consistent : BuildsConsistent contentHash tables)
    (classified : ClassifiedBuild tables buildId episode.claims)
    (covered : validateBuildClaimCoverage episode items duplicates = .ok ())
    (keeps : ∀ duplicate ∈ duplicates, ∀ item ∈ tables.candidateBuildItem,
      item.key = (buildId, duplicate.claimId) → item.state.status.isFinalized = false) :
    ((readCandidateBuildItems (releaseDeduplicatedItems tables buildId
        (duplicates.filter fun duplicate =>
          duplicate.claimId ∉ submittedClaims tables buildId)) buildId).map (·.claimId)).Perm
      ((items.filter fun item =>
        item.claimId ∉ persistedDuplicates tables buildId).map (·.claimId)) := by
  have itemsNodup := (itemClaims_nodup covered).sublist
    ((List.filter_sublist (p := fun item : CandidateBuildItemPreparation =>
      item.claimId ∉ persistedDuplicates tables buildId)).map (·.claimId))
  rw [List.perm_ext_iff_of_nodup (readCandidateBuildItems_claims_nodup _ _) itemsNodup]
  intro claimId
  simp only [List.mem_map, mem_readCandidateBuildItems, mem_releaseDeduplicatedItems,
    List.mem_filter, decide_eq_true_eq]
  constructor
  · rintro ⟨row, ⟨⟨rowMem, notReleased⟩, sameBuild⟩, rfl⟩
    rcases classified_of_mem_claims covered (classified.items row rowMem sameBuild) with
      ⟨item, itemMem, pairEq⟩ | ⟨duplicate, duplicateMem, pairEq⟩
    · have sameClaim : item.claimId = row.claimId := congrArg Prod.snd pairEq
      refine ⟨item, ⟨itemMem, ?_⟩, sameClaim⟩
      intro recorded
      obtain ⟨stored, storedMem, storedKey⟩ := mem_persistedDuplicates.mp recorded
      exact consistent.disjoint row rowMem stored storedMem
        ((Prod.ext sameBuild sameClaim.symm : row.key = (buildId, item.claimId)).trans
          storedKey.symm)
    · -- An open item of a Claim now classified as a duplicate is released.
      have sameClaim : duplicate.claimId = row.claimId := congrArg Prod.snd pairEq
      have rowKey : row.key = (buildId, duplicate.claimId) :=
        Prod.ext sameBuild sameClaim.symm
      have open_ := keeps duplicate duplicateMem row rowMem rowKey
      refine absurd ⟨sameBuild, ⟨duplicate, ⟨duplicateMem, ?_⟩, sameClaim⟩,
        CandidateBuildItemState.candidateId_eq_none.mpr open_⟩ notReleased
      intro submitted
      obtain ⟨stored, storedMem, storedKey, finalized⟩ := mem_submittedClaims.mp submitted
      have sameRow := Table.eq_of_key storedMem rowMem (storedKey.trans rowKey.symm)
      rw [sameRow, open_] at finalized
      cases finalized
  · rintro ⟨item, ⟨itemMem, notRecorded⟩, rfl⟩
    rcases classified.covered _ (mem_claims_of_item covered itemMem) with
      ⟨row, rowMem, rowKey⟩ | ⟨stored, storedMem, storedKey⟩
    · obtain ⟨sameBuild, sameClaim⟩ := Prod.ext_iff.mp rowKey
      refine ⟨row, ⟨⟨rowMem, ?_⟩, sameBuild⟩, sameClaim⟩
      rintro ⟨_, ⟨duplicate, ⟨duplicateMem, _⟩, duplicateClaim⟩, _⟩
      exact claim_not_both covered itemMem duplicateMem
        (sameClaim.symm.trans duplicateClaim.symm)
    · exact absurd (mem_persistedDuplicates.mpr ⟨stored, storedMem, storedKey⟩) notRecorded

theorem mergeClassification_succeeds {episode : WorkEpisodeView} {count : Nat}
    (opened : BuildOpened episodes contentHash episode buildId tables)
    (valid : validateBuildPreparations items = .ok ())
    (covered : validateBuildClaimCoverage episode items duplicates = .ok ())
    (sameHash : ∀ item ∈ items, item.contentHash = none ∨
      item.contentHash = some (contentHash item.claimId))
    (distinct : newIds.DistinctBelow count) (inCount : items.length ≤ count)
    (fresh : ∀ row ∈ tables.candidateBuildItem, ∀ ordinal < count,
      row.submissionId ≠ newIds.submissionId ordinal)
    (keeps : ∀ duplicate ∈ duplicates, ∀ item ∈ tables.candidateBuildItem,
      item.key = (buildId, duplicate.claimId) → item.state.status.isFinalized = false) :
    ∃ after, mergeClassification tables buildId newIds items duplicates = .ok after := by
  have ready := validateBuildPreparationsFrom_ready valid
  let kept := items.filter fun item => item.claimId ∉ persistedDuplicates tables buildId
  let released := releaseDeduplicatedItems tables buildId
    (duplicates.filter fun duplicate => duplicate.claimId ∉ submittedClaims tables buildId)
  have keptReady : ∀ item ∈ kept, item.validateReadiness = .ok () :=
    fun item itemMem => ready item (List.mem_filter.mp itemMem).1
  suffices upserts : ∃ middle, upsertCandidateBuildItems released buildId newIds kept =
      .ok middle by
    obtain ⟨middle, upserted⟩ := upserts
    exact ⟨_, Result.bind_eq_ok.mpr ⟨middle, upserted, rfl⟩⟩
  simp only [upsertCandidateBuildItems, Result.bind_eq_ok, Result.exists_unit,
    Result.require_eq_ok, exists_and_left]
  rcases opened.placed with classified | ⟨itemsFresh, _⟩
  · have claimsPerm := released_claims_perm opened.toBuildsConsistent classified covered keeps
    have lengthEq := claimsPerm.length_eq
    rw [List.length_map, List.length_map] at lengthEq
    refine ⟨Or.inr lengthEq, upsertCandidateBuildItemsFrom_known 0 released keptReady ?_ ?_⟩
    · intro item itemMem
      have claimMem := claimsPerm.mem_iff.mpr (List.mem_map_of_mem itemMem)
      exact List.mem_map.mp claimMem
    · intro item itemMem persisted persistedMem sameClaim
      obtain ⟨storedReleased, sameBuild⟩ := mem_readCandidateBuildItems.mp persistedMem
      have stored := (mem_releaseDeduplicatedItems.mp storedReleased).1
      have itemGiven := (List.mem_filter.mp itemMem).1
      constructor
      · have persistedClaim := classified.items persisted stored sameBuild
        rw [sameClaim] at persistedClaim
        exact episode.checkpoint_eq persistedClaim (mem_claims_of_item covered itemGiven)
      · rcases sameHash item itemGiven with noHash | itemHash
        · exact Or.inl noHash
        · rcases opened.hashes persisted stored with noHash | persistedHash
          · exact Or.inr (Or.inl noHash)
          · exact Or.inr (Or.inr (by rw [itemHash, persistedHash, sameClaim]))
  · have noItems : readCandidateBuildItems released buildId = [] := by
      rw [List.eq_nil_iff_forall_not_mem]
      intro row rowMem
      obtain ⟨storedReleased, sameBuild⟩ := mem_readCandidateBuildItems.mp rowMem
      exact itemsFresh row (mem_releaseDeduplicatedItems.mp storedReleased).1 sameBuild
    refine ⟨Or.inl noItems, ?_⟩
    rw [noItems]
    have keptLength : kept.length ≤ items.length := List.length_filter_le _ _
    refine upsertCandidateBuildItemsFrom_fresh 0 released distinct (by omega) keptReady
      ((itemClaims_nodup covered).sublist (List.filter_sublist.map _)) ⟨?_, ?_, ?_⟩
    · intro row rowMem sameBuild
      exact absurd sameBuild (itemsFresh row (mem_releaseDeduplicatedItems.mp rowMem).1)
    · intro row rowMem sameBuild
      exact absurd sameBuild (itemsFresh row (mem_releaseDeduplicatedItems.mp rowMem).1)
    · intro row rowMem later _ inRange
      exact fresh row (mem_releaseDeduplicatedItems.mp rowMem).1 later inRange

end SharedContext
