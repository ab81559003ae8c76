import SharedContext.TaskRuntime.CandidateBuilds

/-!
# What the Build operations do to items and duplicates

A classification is a partition of the Claims of its Episode.  A write keeps an
item when the item after it has the same Claim and submission, and is unchanged
once it was finalized.  The loops of a preparation keep every item they do not
release, and succeed when each Claim either has its item or is new.
-/

namespace SharedContext

/-! ### Classifications -/

theorem nodup_of_card_toFinset {α : Type*} [DecidableEq α] {items : List α}
    (cardEq : items.toFinset.card = items.length) : items.Nodup := by
  rw [List.card_toFinset] at cardEq
  have dedupEq := (List.dedup_sublist items).eq_of_length cardEq
  exact List.dedup_eq_self.mp dedupEq

theorem suppliedClaims_perm {episode : WorkEpisodeView}
    {items : List CandidateBuildItemPreparation}
    {duplicates : List CandidateBuildDuplicatePreparation}
    (covered : validateBuildClaimCoverage episode items duplicates = .ok ()) :
    (suppliedClaims items duplicates).Perm episode.claims := by
  obtain ⟨cardEq, setEq⟩ := Result.require_eq_ok.mp covered
  have suppliedNodup : (suppliedClaims items duplicates).Nodup := by
    apply nodup_of_card_toFinset
    rw [← setEq, cardEq]
    simp [suppliedClaims]
  rw [List.perm_ext_iff_of_nodup suppliedNodup episode.claimsNodup.of_map]
  intro claim
  rw [← List.mem_toFinset, ← setEq, List.mem_toFinset]

section Classified

variable {episode : WorkEpisodeView} {items : List CandidateBuildItemPreparation}
  {duplicates : List CandidateBuildDuplicatePreparation}

private theorem classifiedClaims_nodup
    (covered : validateBuildClaimCoverage episode items duplicates = .ok ()) :
    (items.map (·.claimId) ++ duplicates.map (·.claimId)).Nodup := by
  have claimsPerm := (suppliedClaims_perm covered).map Prod.snd
  have suppliedEq : (suppliedClaims items duplicates).map Prod.snd =
      items.map (·.claimId) ++ duplicates.map (·.claimId) := by
    simp [suppliedClaims, Function.comp_def]
  rw [← suppliedEq]
  exact claimsPerm.nodup_iff.mpr episode.claimsNodup

theorem itemClaims_nodup
    (covered : validateBuildClaimCoverage episode items duplicates = .ok ()) :
    (items.map (·.claimId)).Nodup :=
  (List.nodup_append.mp (classifiedClaims_nodup covered)).1

theorem claim_not_both (covered : validateBuildClaimCoverage episode items duplicates = .ok ())
    {item : CandidateBuildItemPreparation} (itemMem : item ∈ items)
    {duplicate : CandidateBuildDuplicatePreparation} (duplicateMem : duplicate ∈ duplicates) :
    item.claimId ≠ duplicate.claimId :=
  (List.nodup_append.mp (classifiedClaims_nodup covered)).2.2 _ (List.mem_map_of_mem itemMem) _
    (List.mem_map_of_mem duplicateMem)

theorem mem_claims_of_item
    (covered : validateBuildClaimCoverage episode items duplicates = .ok ())
    {item : CandidateBuildItemPreparation} (itemMem : item ∈ items) :
    (item.checkpointId, item.claimId) ∈ episode.claims := by
  rw [← (suppliedClaims_perm covered).mem_iff]
  exact List.mem_append_left _ (List.mem_map.mpr ⟨item, itemMem, rfl⟩)

theorem mem_claims_of_duplicate
    (covered : validateBuildClaimCoverage episode items duplicates = .ok ())
    {duplicate : CandidateBuildDuplicatePreparation} (duplicateMem : duplicate ∈ duplicates) :
    (duplicate.checkpointId, duplicate.claimId) ∈ episode.claims := by
  rw [← (suppliedClaims_perm covered).mem_iff]
  exact List.mem_append_right _ (List.mem_map.mpr ⟨duplicate, duplicateMem, rfl⟩)

theorem classified_of_mem_claims
    (covered : validateBuildClaimCoverage episode items duplicates = .ok ())
    {claim : AgentCheckpointId × CheckpointClaimId} (claimMem : claim ∈ episode.claims) :
    (∃ item ∈ items, (item.checkpointId, item.claimId) = claim) ∨
      ∃ duplicate ∈ duplicates, (duplicate.checkpointId, duplicate.claimId) = claim := by
  rw [← (suppliedClaims_perm covered).mem_iff] at claimMem
  rcases List.mem_append.mp claimMem with fromItem | fromDuplicate
  · exact Or.inl (List.mem_map.mp fromItem)
  · exact Or.inr (List.mem_map.mp fromDuplicate)

end Classified

theorem WorkEpisodeView.checkpoint_eq {episode : WorkEpisodeView} {claimId : CheckpointClaimId}
    {first second : AgentCheckpointId} (firstMem : (first, claimId) ∈ episode.claims)
    (secondMem : (second, claimId) ∈ episode.claims) : first = second :=
  congrArg Prod.fst (List.inj_on_of_nodup_map episode.claimsNodup firstMem secondMem rfl)

theorem ofColumns_of_ready {item : CandidateBuildItemPreparation}
    (ready : item.validateReadiness = .ok ()) :
    ∃ state, CandidateBuildItemState.ofColumns item.contentHash item.status none none
      item.errorCode = .ok state := by
  unfold CandidateBuildItemPreparation.validateReadiness at ready
  split at ready
  case h_1 isPrepared =>
    obtain ⟨hasHash, noError⟩ := Result.require_eq_ok.mp ready
    cases hashEq : item.contentHash with
    | none => simp [hashEq] at hasHash
    | some contentHash => exact ⟨.prepared contentHash, by rw [isPrepared, noError]; rfl⟩
  case h_2 needsEvidence =>
    obtain ⟨noHash, hasError⟩ := Result.require_eq_ok.mp ready
    cases errorEq : item.errorCode with
    | none => simp [errorEq] at hasError
    | some errorCode => exact ⟨.needsEvidence errorCode, by rw [needsEvidence, noHash]; rfl⟩
  all_goals cases ready

theorem validateBuildPreparationsFrom_ready {seen : List CheckpointClaimId}
    {items : List CandidateBuildItemPreparation}
    (valid : validateBuildPreparationsFrom seen items = .ok ()) :
    ∀ item ∈ items, item.validateReadiness = .ok () := by
  induction items generalizing seen with
  | nil => exact fun item itemMem => absurd itemMem List.not_mem_nil
  | cons first rest ih =>
      simp only [validateBuildPreparationsFrom, Result.seq_eq_ok] at valid
      intro item itemMem
      rcases List.mem_cons.mp itemMem with rfl | later
      · exact valid.2.1
      · exact ih valid.2.2 item later

/-! ### Reading -/

theorem mem_readCandidateBuildItems {tables : CandidateTables} {buildId : CandidateBuildId}
    {row : CandidateBuildItemRow} :
    row ∈ readCandidateBuildItems tables buildId ↔
      row ∈ tables.candidateBuildItem ∧ row.buildId = buildId := by
  simp [readCandidateBuildItems, Table.mem_def]

theorem mem_readCandidateBuildDuplicates {tables : CandidateTables}
    {buildId : CandidateBuildId} {row : CandidateBuildDuplicateRow} :
    row ∈ readCandidateBuildDuplicates tables buildId ↔
      row ∈ tables.candidateBuildDuplicate ∧ row.buildId = buildId := by
  simp [readCandidateBuildDuplicates, Table.mem_def]

theorem readCandidateBuildItem_eq_some {tables : CandidateTables} {buildId : CandidateBuildId}
    {submissionId : SubmissionId} {row : CandidateBuildItemRow}
    (found : readCandidateBuildItem tables buildId submissionId = some row) :
    row ∈ tables.candidateBuildItem ∧ row.buildId = buildId ∧
      row.submissionId = submissionId := by
  obtain ⟨rowMem, sameBuild⟩ := mem_readCandidateBuildItems.mp (List.mem_of_find?_eq_some found)
  have sameSubmission := List.find?_some found
  exact ⟨rowMem, sameBuild, of_decide_eq_true sameSubmission⟩

theorem readCandidateBuildItems_claims_nodup (tables : CandidateTables)
    (buildId : CandidateBuildId) :
    ((readCandidateBuildItems tables buildId).map (·.claimId)).Nodup := by
  apply List.Nodup.map_on
  · intro first firstMem second secondMem sameClaim
    obtain ⟨firstStored, firstBuild⟩ := mem_readCandidateBuildItems.mp firstMem
    obtain ⟨secondStored, secondBuild⟩ := mem_readCandidateBuildItems.mp secondMem
    exact Table.eq_of_key firstStored secondStored
      (Prod.ext (firstBuild.trans secondBuild.symm) sameClaim)
  · have perm := List.perm_insertionSort
      (fun first second : CandidateBuildItemRow => first.itemOrdinal ≤ second.itemOrdinal)
      (tables.candidateBuildItem.rows.filter fun row => row.buildId = buildId)
    exact perm.nodup_iff.mpr (tables.candidateBuildItem.nodup.filter _)

theorem mem_submittedClaims {tables : CandidateTables} {buildId : CandidateBuildId}
    {claimId : CheckpointClaimId} :
    claimId ∈ submittedClaims tables buildId ↔
      ∃ row ∈ tables.candidateBuildItem, row.key = (buildId, claimId) ∧
        row.state.status.isFinalized = true := by
  simp only [submittedClaims, List.mem_map, List.mem_filter, mem_readCandidateBuildItems,
    CandidateBuildItemRow.key, Prod.mk.injEq]
  constructor
  · rintro ⟨row, ⟨⟨rowMem, sameBuild⟩, finalized⟩, sameClaim⟩
    exact ⟨row, rowMem, ⟨sameBuild, sameClaim⟩, finalized⟩
  · rintro ⟨row, rowMem, ⟨sameBuild, sameClaim⟩, finalized⟩
    exact ⟨row, ⟨⟨rowMem, sameBuild⟩, finalized⟩, sameClaim⟩

theorem mem_persistedDuplicates {tables : CandidateTables} {buildId : CandidateBuildId}
    {claimId : CheckpointClaimId} :
    claimId ∈ persistedDuplicates tables buildId ↔
      ∃ row ∈ tables.candidateBuildDuplicate, row.key = (buildId, claimId) := by
  simp only [persistedDuplicates, List.mem_map, mem_readCandidateBuildDuplicates,
    CandidateBuildDuplicateRow.key, Prod.mk.injEq]
  constructor
  · rintro ⟨row, ⟨rowMem, sameBuild⟩, sameClaim⟩
    exact ⟨row, rowMem, sameBuild, sameClaim⟩
  · rintro ⟨row, rowMem, sameBuild, sameClaim⟩
    exact ⟨row, ⟨rowMem, sameBuild⟩, sameClaim⟩

/-! ### One item -/

/-- The item keeps its Claim and its submission, and all of it once finalized. -/
structure KeepsItem (old new : CandidateBuildItemRow) : Prop where
  key : new.key = old.key
  checkpoint : new.checkpointId = old.checkpointId
  submission : new.submissionId = old.submissionId
  finalized : old.state.status.isFinalized = true → new = old

/-- A preparation keeps the item and does not finalize it. -/
structure PreparesItem (old new : CandidateBuildItemRow) : Prop extends KeepsItem old new where
  unfinalized : new.state.status.isFinalized = true → new = old

theorem KeepsItem.refl (row : CandidateBuildItemRow) : KeepsItem row row :=
  ⟨rfl, rfl, rfl, fun _ => rfl⟩

theorem KeepsItem.trans {first second third : CandidateBuildItemRow}
    (before : KeepsItem first second) (after : KeepsItem second third) :
    KeepsItem first third where
  key := after.key.trans before.key
  checkpoint := after.checkpoint.trans before.checkpoint
  submission := after.submission.trans before.submission
  finalized := by
    intro firstFinalized
    have secondEq := before.finalized firstFinalized
    subst secondEq
    exact after.finalized firstFinalized

theorem PreparesItem.refl (row : CandidateBuildItemRow) : PreparesItem row row :=
  ⟨KeepsItem.refl row, fun _ => rfl⟩

theorem PreparesItem.trans {first second third : CandidateBuildItemRow}
    (before : PreparesItem first second) (after : PreparesItem second third) :
    PreparesItem first third where
  toKeepsItem := before.toKeepsItem.trans after.toKeepsItem
  unfinalized := by
    intro thirdFinalized
    have thirdEq := after.unfinalized thirdFinalized
    subst thirdEq
    exact before.unfinalized thirdFinalized

theorem PreparesItem.of_states {row : CandidateBuildItemRow} {state : CandidateBuildItemState}
    (open_ : row.state.status.isFinalized = false) (noCandidate : state.candidateId = none) :
    PreparesItem row { row with state } := by
  refine ⟨⟨rfl, rfl, rfl, ?_⟩, ?_⟩
  · intro finalized
    rw [open_] at finalized
    cases finalized
  · intro finalized
    rw [CandidateBuildItemState.candidateId_eq_none.mp noCandidate] at finalized
    cases finalized

/-! ### The items of a preparation -/

/-- `submission_id` is unique. -/
def SubmissionsUnique (tables : CandidateTables) : Prop :=
  ∀ first ∈ tables.candidateBuildItem, ∀ second ∈ tables.candidateBuildItem,
    first.submissionId = second.submissionId → first = second

/-- What merging preparations into the items of a Build does. -/
structure ItemsMerged (buildId : CandidateBuildId) (items : List CandidateBuildItemPreparation)
    (before after : CandidateTables) : Prop where
  kept : ∀ old ∈ before.candidateBuildItem, ∃ new ∈ after.candidateBuildItem,
    PreparesItem old new
  origin : ∀ new ∈ after.candidateBuildItem,
    (∃ old ∈ before.candidateBuildItem, PreparesItem old new) ∨
      new.buildId = buildId ∧
        ∃ item ∈ items, item.checkpointId = new.checkpointId ∧ item.claimId = new.claimId
  hashes : ∀ new ∈ after.candidateBuildItem,
    (∃ old ∈ before.candidateBuildItem, old.claimId = new.claimId ∧
        old.state.contentHash = new.state.contentHash) ∨
      ∃ item ∈ items, item.claimId = new.claimId ∧ item.contentHash = new.state.contentHash
  present : ∀ item ∈ items, ∃ new ∈ after.candidateBuildItem, new.key = (buildId, item.claimId)
  unique : SubmissionsUnique before → SubmissionsUnique after
  frame : after = { before with candidateBuildItem := after.candidateBuildItem }

namespace ItemsMerged

variable {buildId : CandidateBuildId} {before middle after : CandidateTables}

theorem refl (buildId : CandidateBuildId) (tables : CandidateTables) :
    ItemsMerged buildId [] tables tables where
  kept old oldMem := ⟨old, oldMem, PreparesItem.refl old⟩
  origin new newMem := Or.inl ⟨new, newMem, PreparesItem.refl new⟩
  hashes new newMem := Or.inl ⟨new, newMem, rfl, rfl⟩
  present _ itemMem := absurd itemMem List.not_mem_nil
  unique := id
  frame := rfl

theorem cons {item : CandidateBuildItemPreparation} {rest : List CandidateBuildItemPreparation}
    (first : ItemsMerged buildId [item] before middle)
    (later : ItemsMerged buildId rest middle after) :
    ItemsMerged buildId (item :: rest) before after where
  kept := by
    intro old oldMem
    obtain ⟨new, newMem, prepares⟩ := first.kept old oldMem
    obtain ⟨last, lastMem, preparesLast⟩ := later.kept new newMem
    exact ⟨last, lastMem, prepares.trans preparesLast⟩
  origin := by
    intro last lastMem
    rcases later.origin last lastMem with ⟨new, newMem, preparesLast⟩ | ⟨sameBuild, fromRest⟩
    · rcases first.origin new newMem with ⟨old, oldMem, prepares⟩ | ⟨sameBuild, fromItem⟩
      · exact Or.inl ⟨old, oldMem, prepares.trans preparesLast⟩
      · obtain ⟨only, onlyMem, sameCheckpoint, sameClaim⟩ := fromItem
        cases List.mem_singleton.mp onlyMem
        have keyEq := Prod.ext_iff.mp preparesLast.key
        exact Or.inr ⟨keyEq.1.trans sameBuild, item, List.mem_cons_self,
          sameCheckpoint.trans preparesLast.checkpoint.symm, sameClaim.trans keyEq.2.symm⟩
    · obtain ⟨other, otherMem, sameClaim⟩ := fromRest
      exact Or.inr ⟨sameBuild, other, List.mem_cons_of_mem _ otherMem, sameClaim⟩
  hashes := by
    intro last lastMem
    rcases later.hashes last lastMem with ⟨new, newMem, sameClaim, sameHash⟩ | fromRest
    · rcases first.hashes new newMem with ⟨old, oldMem, oldClaim, oldHash⟩ | fromItem
      · exact Or.inl ⟨old, oldMem, oldClaim.trans sameClaim, oldHash.trans sameHash⟩
      · obtain ⟨only, onlyMem, onlyClaim, onlyHash⟩ := fromItem
        cases List.mem_singleton.mp onlyMem
        exact Or.inr ⟨item, List.mem_cons_self, onlyClaim.trans sameClaim,
          onlyHash.trans sameHash⟩
    · obtain ⟨other, otherMem, sameItem⟩ := fromRest
      exact Or.inr ⟨other, List.mem_cons_of_mem _ otherMem, sameItem⟩
  present := by
    intro wanted wantedMem
    rcases List.mem_cons.mp wantedMem with rfl | inRest
    · obtain ⟨new, newMem, keyEq⟩ := first.present wanted List.mem_cons_self
      obtain ⟨last, lastMem, prepares⟩ := later.kept new newMem
      exact ⟨last, lastMem, prepares.key.trans keyEq⟩
    · exact later.present wanted inRest
  unique := later.unique ∘ first.unique
  frame := by
    have firstFrame := first.frame
    have laterFrame := later.frame
    rw [firstFrame] at laterFrame
    exact laterFrame

end ItemsMerged

theorem mem_updateCandidateBuildItems {tables : CandidateTables}
    {condition : CandidateBuildItemRow → Bool} {state : CandidateBuildItemState}
    {row : CandidateBuildItemRow} :
    row ∈ (updateCandidateBuildItems tables condition state).candidateBuildItem ↔
      ∃ old ∈ tables.candidateBuildItem,
        (if condition old then { old with state } else old) = row :=
  List.mem_map

theorem insertCandidateBuildItem_eq_ok {tables after : CandidateTables}
    {row : CandidateBuildItemRow} :
    insertCandidateBuildItem tables row = .ok after ↔
      (∀ other ∈ tables.candidateBuildItem, other.submissionId ≠ row.submissionId) ∧
      (∀ other ∈ tables.candidateBuildItem, other.buildId = row.buildId →
        other.itemOrdinal ≠ row.itemOrdinal) ∧
      ∃ inserted, tables.candidateBuildItem.insert row = some inserted ∧
        after = { tables with candidateBuildItem := inserted } := by
  simp only [insertCandidateBuildItem, Result.bind_eq_ok, Result.exists_unit,
    Result.require_eq_ok, Table.mem_def]
  refine and_congr_right fun _ => and_congr_right fun _ => ?_
  cases tables.candidateBuildItem.insert row with
  | none => simp
  | some inserted => simp [pure, Except.pure, eq_comm]

theorem updateCandidateBuildItems_unique {tables : CandidateTables}
    {condition : CandidateBuildItemRow → Bool} {state : CandidateBuildItemState}
    (unique : SubmissionsUnique tables) :
    SubmissionsUnique (updateCandidateBuildItems tables condition state) := by
  have submissionEq : ∀ row : CandidateBuildItemRow,
      (if condition row then { row with state } else row).submissionId = row.submissionId := by
    intro row
    split <;> rfl
  intro first firstMem second secondMem sameSubmission
  obtain ⟨firstOld, firstOldMem, rfl⟩ := mem_updateCandidateBuildItems.mp firstMem
  obtain ⟨secondOld, secondOldMem, rfl⟩ := mem_updateCandidateBuildItems.mp secondMem
  rw [submissionEq, submissionEq] at sameSubmission
  rw [unique firstOld firstOldMem secondOld secondOldMem sameSubmission]

theorem insertCandidateBuildItem_unique {tables after : CandidateTables}
    {row : CandidateBuildItemRow} (inserted : insertCandidateBuildItem tables row = .ok after)
    (unique : SubmissionsUnique tables) : SubmissionsUnique after := by
  obtain ⟨fresh, _, rows, insertEq, afterEq⟩ := insertCandidateBuildItem_eq_ok.mp inserted
  subst afterEq
  intro first firstMem second secondMem sameSubmission
  rcases (Table.mem_insert insertEq).mp firstMem with firstOld | rfl
  · rcases (Table.mem_insert insertEq).mp secondMem with secondOld | rfl
    · exact unique first firstOld second secondOld sameSubmission
    · exact absurd sameSubmission (fresh first firstOld)
  · rcases (Table.mem_insert insertEq).mp secondMem with secondOld | rfl
    · exact absurd sameSubmission.symm (fresh second secondOld)
    · rfl

section Upserts

variable {existing : List CandidateBuildItemRow} {buildId : CandidateBuildId}
  {newIds : NewBuildIds}

/-- The items read before the loop are those of the Build, up to preparation. -/
def KnownItems (existing : List CandidateBuildItemRow) (buildId : CandidateBuildId)
    (tables : CandidateTables) : Prop :=
  ∀ persisted ∈ existing, persisted.buildId = buildId ∧
    ∃ row ∈ tables.candidateBuildItem, PreparesItem persisted row

variable {tables after : CandidateTables}

theorem upsertCandidateBuildItem_ok {ordinal : Nat} {item : CandidateBuildItemPreparation}
    (ran : upsertCandidateBuildItem existing buildId newIds ordinal item tables = .ok after)
    (known : KnownItems existing buildId tables) :
    ItemsMerged buildId [item] tables after := by
  unfold upsertCandidateBuildItem at ran
  split at ran
  case h_1 persisted found =>
    have persistedMem := List.mem_of_find?_eq_some found
    have foundClaim := List.find?_some found
    have persistedClaim : persisted.claimId = item.claimId := of_decide_eq_true foundClaim
    obtain ⟨persistedBuild, row, rowMem, prepared⟩ := known persisted persistedMem
    have rowKey : row.key = (buildId, item.claimId) :=
      prepared.key.trans (Prod.ext persistedBuild persistedClaim)
    simp only [Result.bind_eq_ok, Result.exists_unit, Result.require_eq_ok] at ran
    obtain ⟨_, _, ran⟩ := ran
    split at ran
    case isTrue =>
      cases ran
      refine ⟨fun old oldMem => ⟨old, oldMem, PreparesItem.refl old⟩, ?_, ?_, ?_, id, rfl⟩
      · exact fun new newMem => Or.inl ⟨new, newMem, PreparesItem.refl new⟩
      · exact fun new newMem => Or.inl ⟨new, newMem, rfl, rfl⟩
      · intro wanted wantedMem
        cases List.mem_singleton.mp wantedMem
        exact ⟨row, rowMem, rowKey⟩
    case isFalse changes =>
      simp only [Result.bind_eq_ok, Result.pure_eq_ok] at ran
      obtain ⟨state, checked, made⟩ := ran
      cases made
      have columns := CandidateBuildItemState.ofColumns_eq_ok checked
      -- The row the update selects is the one the persisted item became.
      have selected : ∀ old ∈ tables.candidateBuildItem,
          old.buildId = buildId ∧ old.claimId = item.claimId →
            PreparesItem old { old with state } := by
        intro old oldMem keyEq
        have oldEq : old = row := Table.eq_of_key oldMem rowMem
          ((Prod.ext keyEq.1 keyEq.2 : old.key = (buildId, item.claimId)).trans rowKey.symm)
        subst oldEq
        apply PreparesItem.of_states _ columns.2.2.1
        by_contra finalized
        have isFinalized := Bool.eq_true_of_not_eq_false finalized
        have sameRow := prepared.unfinalized isFinalized
        subst sameRow
        exact changes (Or.inl isFinalized)
      refine ⟨?_, ?_, ?_, ?_, updateCandidateBuildItems_unique, rfl⟩
      · intro old oldMem
        refine ⟨_, mem_updateCandidateBuildItems.mpr ⟨old, oldMem, rfl⟩, ?_⟩
        split
        case isTrue keyEq => exact selected old oldMem (of_decide_eq_true keyEq)
        case isFalse => exact PreparesItem.refl old
      · intro new newMem
        obtain ⟨old, oldMem, newEq⟩ := mem_updateCandidateBuildItems.mp newMem
        subst newEq
        refine Or.inl ⟨old, oldMem, ?_⟩
        split
        case isTrue keyEq => exact selected old oldMem (of_decide_eq_true keyEq)
        case isFalse => exact PreparesItem.refl old
      · intro new newMem
        obtain ⟨old, oldMem, newEq⟩ := mem_updateCandidateBuildItems.mp newMem
        subst newEq
        split
        case isTrue keyEq =>
          exact Or.inr ⟨item, List.mem_cons_self, (of_decide_eq_true keyEq).2.symm,
            columns.1.symm⟩
        case isFalse => exact Or.inl ⟨old, oldMem, rfl, rfl⟩
      · intro wanted wantedMem
        cases List.mem_singleton.mp wantedMem
        refine ⟨_, mem_updateCandidateBuildItems.mpr ⟨row, rowMem, rfl⟩, ?_⟩
        split <;> exact rowKey
  case h_2 =>
    simp only [Result.bind_eq_ok] at ran
    obtain ⟨state, checked, ran⟩ := ran
    have unique := insertCandidateBuildItem_unique ran
    obtain ⟨_, _, inserted, insertEq, afterEq⟩ := insertCandidateBuildItem_eq_ok.mp ran
    subst afterEq
    have columns := CandidateBuildItemState.ofColumns_eq_ok checked
    refine ⟨?_, ?_, ?_, ?_, unique, rfl⟩
    · exact fun old oldMem =>
        ⟨old, (Table.mem_insert insertEq).mpr (Or.inl oldMem), PreparesItem.refl old⟩
    · intro new newMem
      rcases (Table.mem_insert insertEq).mp newMem with oldMem | rfl
      · exact Or.inl ⟨new, oldMem, PreparesItem.refl new⟩
      · exact Or.inr ⟨rfl, item, List.mem_cons_self, rfl, rfl⟩
    · intro new newMem
      rcases (Table.mem_insert insertEq).mp newMem with oldMem | rfl
      · exact Or.inl ⟨new, oldMem, rfl, rfl⟩
      · exact Or.inr ⟨item, List.mem_cons_self, rfl, columns.1.symm⟩
    · intro wanted wantedMem
      cases List.mem_singleton.mp wantedMem
      exact ⟨_, (Table.mem_insert insertEq).mpr (Or.inr rfl), rfl⟩

theorem KnownItems.merged {items : List CandidateBuildItemPreparation}
    {before : CandidateTables} (known : KnownItems existing buildId before)
    (merged : ItemsMerged buildId items before after) : KnownItems existing buildId after := by
  intro persisted persistedMem
  obtain ⟨sameBuild, row, rowMem, prepares⟩ := known persisted persistedMem
  obtain ⟨new, newMem, preparesNew⟩ := merged.kept row rowMem
  exact ⟨sameBuild, new, newMem, prepares.trans preparesNew⟩

theorem upsertCandidateBuildItemsFrom_ok {ordinal : Nat}
    {items : List CandidateBuildItemPreparation}
    (ran : upsertCandidateBuildItemsFrom existing buildId newIds ordinal items tables =
      .ok after)
    (known : KnownItems existing buildId tables) : ItemsMerged buildId items tables after := by
  induction items generalizing ordinal tables with
  | nil =>
      cases ran
      exact ItemsMerged.refl buildId after
  | cons item rest ih =>
      simp only [upsertCandidateBuildItemsFrom, Result.bind_eq_ok] at ran
      obtain ⟨middle, first, later⟩ := ran
      have merged := upsertCandidateBuildItem_ok first known
      exact merged.cons (ih later (known.merged merged))

theorem upsertCandidateBuildItems_ok {items : List CandidateBuildItemPreparation}
    (ran : upsertCandidateBuildItems tables buildId newIds items = .ok after) :
    ItemsMerged buildId items tables after := by
  simp only [upsertCandidateBuildItems, Result.bind_eq_ok, Result.exists_unit] at ran
  apply upsertCandidateBuildItemsFrom_ok ran.2
  intro persisted persistedMem
  obtain ⟨stored, sameBuild⟩ := mem_readCandidateBuildItems.mp persistedMem
  exact ⟨sameBuild, persisted, stored, PreparesItem.refl persisted⟩

/-! ### When the loop succeeds -/

theorem upsertCandidateBuildItemsFrom_known (ordinal : Nat)
    {items : List CandidateBuildItemPreparation} (tables : CandidateTables)
    (ready : ∀ item ∈ items, item.validateReadiness = .ok ())
    (found : ∀ item ∈ items, ∃ persisted ∈ existing, persisted.claimId = item.claimId)
    (agrees : ∀ item ∈ items, ∀ persisted ∈ existing, persisted.claimId = item.claimId →
      persisted.checkpointId = item.checkpointId ∧
        (item.contentHash = none ∨ persisted.state.contentHash = none ∨
          item.contentHash = persisted.state.contentHash)) :
    ∃ after, upsertCandidateBuildItemsFrom existing buildId newIds ordinal items tables =
      .ok after := by
  induction items generalizing ordinal tables with
  | nil => exact ⟨tables, rfl⟩
  | cons item rest ih =>
      have first : ∃ middle,
          upsertCandidateBuildItem existing buildId newIds ordinal item tables = .ok middle := by
        obtain ⟨stored, storedMem, storedClaim⟩ := found item List.mem_cons_self
        obtain ⟨state, checked⟩ := ofColumns_of_ready (ready item List.mem_cons_self)
        unfold upsertCandidateBuildItem
        cases lookup : existing.find? (fun persisted => persisted.claimId = item.claimId) with
        | none =>
            have unmatched := List.find?_eq_none.mp lookup stored storedMem
            exact absurd (decide_eq_true storedClaim) unmatched
        | some persisted =>
            have persistedMem := List.mem_of_find?_eq_some lookup
            have sameClaim := List.find?_some lookup
            obtain ⟨sameCheckpoint, sameHash⟩ := agrees item List.mem_cons_self persisted
              persistedMem (of_decide_eq_true sameClaim)
            simp only [Result.bind_eq_ok, Result.exists_unit, Result.require_eq_ok,
              exists_and_left]
            refine ⟨sameCheckpoint, sameHash, ?_⟩
            split
            case isTrue => exact ⟨tables, rfl⟩
            case isFalse => exact ⟨_, by rw [checked]; rfl⟩
      obtain ⟨middle, firstRan⟩ := first
      obtain ⟨after, laterRan⟩ := ih (ordinal + 1) middle
        (fun other otherMem => ready other (List.mem_cons_of_mem _ otherMem))
        (fun other otherMem => found other (List.mem_cons_of_mem _ otherMem))
        (fun other otherMem => agrees other (List.mem_cons_of_mem _ otherMem))
      exact ⟨after, Result.bind_eq_ok.mpr ⟨middle, firstRan, laterRan⟩⟩

/-- No two of the first submissions are the same. -/
def NewBuildIds.DistinctBelow (newIds : NewBuildIds) (count : Nat) : Prop :=
  ∀ first second, first < second → second < count →
    newIds.submissionId first ≠ newIds.submissionId second

/-- The identifiers for a number of items are fresh UUIDs. -/
structure NewBuildIds.Fresh (newIds : NewBuildIds) (count : Nat) (tables : CandidateTables) :
    Prop where
  distinct : newIds.DistinctBelow count
  submissions : ∀ row ∈ tables.candidateBuildItem, ∀ ordinal < count,
    row.submissionId ≠ newIds.submissionId ordinal
  build : ∀ row ∈ tables.candidateBuild, row.buildId ≠ newIds.buildId

/-- Where the items of a Build are those inserted so far. -/
structure InsertedBelow (buildId : CandidateBuildId) (newIds : NewBuildIds)
    (ordinal count : Nat) (claims : List CheckpointClaimId) (tables : CandidateTables) :
    Prop where
  ordinals : ∀ row ∈ tables.candidateBuildItem, row.buildId = buildId →
    row.itemOrdinal < ordinal
  claims : ∀ row ∈ tables.candidateBuildItem, row.buildId = buildId → row.claimId ∉ claims
  submissions : ∀ row ∈ tables.candidateBuildItem, ∀ later, ordinal ≤ later → later < count →
    row.submissionId ≠ newIds.submissionId later

theorem upsertCandidateBuildItemsFrom_fresh (ordinal : Nat) {count : Nat}
    {items : List CandidateBuildItemPreparation} (tables : CandidateTables)
    (distinct : newIds.DistinctBelow count) (inCount : ordinal + items.length ≤ count)
    (ready : ∀ item ∈ items, item.validateReadiness = .ok ())
    (claimsNodup : (items.map (·.claimId)).Nodup)
    (below : InsertedBelow buildId newIds ordinal count (items.map (·.claimId)) tables) :
    ∃ after, upsertCandidateBuildItemsFrom [] buildId newIds ordinal items tables =
      .ok after := by
  induction items generalizing ordinal tables with
  | nil => exact ⟨tables, rfl⟩
  | cons item rest ih =>
      obtain ⟨state, checked⟩ := ofColumns_of_ready (ready item List.mem_cons_self)
      obtain ⟨itemFresh, restNodup⟩ := List.nodup_cons.mp claimsNodup
      rw [List.length_cons] at inCount
      let row : CandidateBuildItemRow := ⟨buildId, ordinal, item.checkpointId, item.claimId,
        newIds.submissionId ordinal, state⟩
      have keyFree : ∀ other ∈ tables.candidateBuildItem, other.key ≠ row.key := by
        intro other otherMem sameKey
        obtain ⟨sameBuild, sameClaim⟩ := Prod.ext_iff.mp sameKey
        apply below.claims other otherMem sameBuild
        rw [show other.claimId = item.claimId from sameClaim]
        exact List.mem_cons_self
      obtain ⟨inserted, insertEq⟩ : ∃ inserted, tables.candidateBuildItem.insert row =
          some inserted := by
        cases attempt : tables.candidateBuildItem.insert row with
        | some inserted => exact ⟨inserted, rfl⟩
        | none => exact absurd keyFree (Table.insert_eq_none.mp attempt)
      have firstRan : upsertCandidateBuildItem [] buildId newIds ordinal item tables =
          .ok { tables with candidateBuildItem := inserted } := by
        simp only [upsertCandidateBuildItem, List.find?_nil, Result.bind_eq_ok]
        refine ⟨state, checked, insertCandidateBuildItem_eq_ok.mpr ⟨?_, ?_, inserted, insertEq,
          rfl⟩⟩
        · exact fun other otherMem =>
            below.submissions other otherMem ordinal (Nat.le_refl _) (by omega)
        · exact fun other otherMem sameBuild =>
            Nat.ne_of_lt (below.ordinals other otherMem sameBuild)
      have belowNext : InsertedBelow buildId newIds (ordinal + 1) count
          (rest.map (·.claimId))
          { tables with candidateBuildItem := inserted } := by
        refine ⟨?_, ?_, ?_⟩
        · intro other otherMem sameBuild
          rcases (Table.mem_insert insertEq).mp otherMem with stored | rfl
          · exact Nat.lt_succ_of_lt (below.ordinals other stored sameBuild)
          · exact Nat.lt_succ_self ordinal
        · intro other otherMem sameBuild
          rcases (Table.mem_insert insertEq).mp otherMem with stored | rfl
          · exact fun inRest => below.claims other stored sameBuild
              (List.mem_cons_of_mem _ inRest)
          · exact itemFresh
        · intro other otherMem later isLater inRange
          rcases (Table.mem_insert insertEq).mp otherMem with stored | rfl
          · exact below.submissions other stored later (Nat.le_of_succ_le isLater) inRange
          · exact distinct ordinal later isLater inRange
      obtain ⟨after, laterRan⟩ := ih (ordinal + 1) _ (by omega)
        (fun other otherMem => ready other (List.mem_cons_of_mem _ otherMem)) restNodup belowNext
      exact ⟨after, Result.bind_eq_ok.mpr ⟨_, firstRan, laterRan⟩⟩

end Upserts

/-! ### The duplicates of a preparation -/

/-- What recording duplicates does to the tables. -/
structure DuplicatesRecorded (buildId : CandidateBuildId)
    (duplicates : List CandidateBuildDuplicatePreparation) (before after : CandidateTables) :
    Prop where
  kept : ∀ old ∈ before.candidateBuildDuplicate, old ∈ after.candidateBuildDuplicate
  origin : ∀ new ∈ after.candidateBuildDuplicate, new ∈ before.candidateBuildDuplicate ∨
    new.buildId = buildId ∧ ∃ duplicate ∈ duplicates,
      duplicate.checkpointId = new.checkpointId ∧ duplicate.claimId = new.claimId
  present : ∀ duplicate ∈ duplicates, duplicate.similarityBasisPoints ≤ 10000 →
    ∃ new ∈ after.candidateBuildDuplicate, new.key = (buildId, duplicate.claimId)
  frame : after = { before with candidateBuildDuplicate := after.candidateBuildDuplicate }

theorem insertCandidateBuildDuplicate_recorded (buildId : CandidateBuildId)
    (tables : CandidateTables) (duplicate : CandidateBuildDuplicatePreparation) :
    DuplicatesRecorded buildId [duplicate] tables
      (insertCandidateBuildDuplicate buildId tables duplicate) := by
  unfold insertCandidateBuildDuplicate
  split
  case isTrue =>
    split
    case h_1 inserted insertEq =>
      refine ⟨fun old oldMem => (Table.mem_insert insertEq).mpr (Or.inl oldMem), ?_, ?_, rfl⟩
      · intro new newMem
        rcases (Table.mem_insert insertEq).mp newMem with stored | rfl
        · exact Or.inl stored
        · exact Or.inr ⟨rfl, duplicate, List.mem_cons_self, rfl, rfl⟩
      · intro wanted wantedMem _
        cases List.mem_singleton.mp wantedMem
        exact ⟨_, (Table.mem_insert insertEq).mpr (Or.inr rfl), rfl⟩
    case h_2 taken =>
      refine ⟨fun old oldMem => oldMem, fun new newMem => Or.inl newMem, ?_, rfl⟩
      intro wanted wantedMem _
      cases List.mem_singleton.mp wantedMem
      by_contra absent
      apply Table.insert_eq_none.mp taken
      intro other otherMem sameKey
      exact absent ⟨other, otherMem, sameKey⟩
  case isFalse outOfRange =>
    refine ⟨fun old oldMem => oldMem, fun new newMem => Or.inl newMem, ?_, rfl⟩
    intro wanted wantedMem inRange
    cases List.mem_singleton.mp wantedMem
    exact absurd inRange outOfRange

theorem insertCandidateBuildDuplicates_recorded (tables : CandidateTables)
    (buildId : CandidateBuildId) (duplicates : List CandidateBuildDuplicatePreparation) :
    DuplicatesRecorded buildId duplicates tables
      (insertCandidateBuildDuplicates tables buildId duplicates) := by
  unfold insertCandidateBuildDuplicates
  induction duplicates generalizing tables with
  | nil =>
      exact ⟨fun old oldMem => oldMem, fun new newMem => Or.inl newMem,
        fun duplicate duplicateMem => absurd duplicateMem List.not_mem_nil, rfl⟩
  | cons duplicate rest ih =>
      have first := insertCandidateBuildDuplicate_recorded buildId tables duplicate
      have later := ih (insertCandidateBuildDuplicate buildId tables duplicate)
      rw [List.foldl_cons]
      refine ⟨fun old oldMem => later.kept old (first.kept old oldMem), ?_, ?_, ?_⟩
      · intro new newMem
        rcases later.origin new newMem with middleMem | ⟨sameBuild, other, otherMem, sameClaim⟩
        · rcases first.origin new middleMem with oldMem | ⟨sameBuild, only, onlyMem, sameClaim⟩
          · exact Or.inl oldMem
          · cases List.mem_singleton.mp onlyMem
            exact Or.inr ⟨sameBuild, duplicate, List.mem_cons_self, sameClaim⟩
        · exact Or.inr ⟨sameBuild, other, List.mem_cons_of_mem _ otherMem, sameClaim⟩
      · intro wanted wantedMem inRange
        rcases List.mem_cons.mp wantedMem with rfl | inRest
        · obtain ⟨new, newMem, keyEq⟩ := first.present wanted List.mem_cons_self inRange
          exact ⟨new, later.kept new newMem, keyEq⟩
        · exact later.present wanted inRest inRange
      · have firstFrame := first.frame
        have laterFrame := later.frame
        rw [firstFrame] at laterFrame
        rw [firstFrame]
        exact laterFrame

end SharedContext
