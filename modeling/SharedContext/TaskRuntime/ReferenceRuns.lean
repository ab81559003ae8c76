import Mathlib.Data.List.Forall2
import SharedContext.TaskRuntime.ReferenceRecords

/-!
# Derivations only add

No call removes or rewrites a Reference or a topic hint.  Deriving twice with
one resolver adds nothing the second time, and a recorded path scans back to the
path that was looked up, without its line span.
-/

namespace SharedContext

variable {resolver : ClaimResolver} {observations : List WorkObservation}

/-! ### Merging -/

theorem addReference_sublist (persisted : List EngineeringReferenceDraft)
    (reference : EngineeringReferenceDraft) :
    persisted.Sublist (addReference persisted reference) := by
  rw [addReference]
  split
  · exact List.Sublist.refl _
  · exact List.sublist_append_left _ _

theorem foldl_addReference_sublist (persisted derived : List EngineeringReferenceDraft) :
    persisted.Sublist (derived.foldl addReference persisted) := by
  induction derived generalizing persisted with
  | nil => exact List.Sublist.refl _
  | cons reference rest ih => exact (addReference_sublist persisted reference).trans (ih _)

theorem mergeEngineeringReferences_subperm (persisted derived : List EngineeringReferenceDraft) :
    persisted.Subperm (mergeEngineeringReferences persisted derived) :=
  (foldl_addReference_sublist persisted derived).subperm.trans
    (List.perm_insertionSort _ _).symm.subperm

def Knows (references : List EngineeringReferenceDraft)
    (reference : EngineeringReferenceDraft) : Prop :=
  (references.any fun existing => existing.sameCoordinate reference) = true

theorem Knows.of_subset {references more : List EngineeringReferenceDraft}
    {reference : EngineeringReferenceDraft} (known : Knows references reference)
    (subset : references ⊆ more) : Knows more reference := by
  obtain ⟨existing, member, same⟩ := List.any_eq_true.mp known
  exact List.any_eq_true.mpr ⟨existing, subset member, same⟩

theorem knows_addReference (persisted : List EngineeringReferenceDraft)
    (reference : EngineeringReferenceDraft) :
    Knows (addReference persisted reference) reference := by
  by_cases known : (persisted.any fun existing => existing.sameCoordinate reference) = true
  · rw [addReference, if_pos known]
    exact known
  · rw [addReference, if_neg known]
    refine List.any_eq_true.mpr ⟨reference, by simp, ?_⟩
    simp [EngineeringReferenceDraft.sameCoordinate]

theorem knows_foldl {derived : List EngineeringReferenceDraft}
    {reference : EngineeringReferenceDraft} (member : reference ∈ derived)
    (persisted : List EngineeringReferenceDraft) :
    Knows (derived.foldl addReference persisted) reference := by
  induction derived generalizing persisted with
  | nil => exact absurd member List.not_mem_nil
  | cons first rest ih =>
      rcases List.mem_cons.mp member with rfl | inRest
      · exact (knows_addReference persisted reference).of_subset
          (foldl_addReference_sublist _ rest).subset
      · exact ih inRest _

theorem foldl_addReference_known {persisted derived : List EngineeringReferenceDraft}
    (known : ∀ reference ∈ derived, Knows persisted reference) :
    derived.foldl addReference persisted = persisted := by
  induction derived with
  | nil => rfl
  | cons first rest ih =>
      have firstKnown : addReference persisted first = persisted :=
        if_pos (known first List.mem_cons_self)
      rw [List.foldl_cons, firstKnown]
      exact ih fun reference member => known reference (List.mem_cons_of_mem _ member)

theorem mergeEngineeringReferences_again (persisted derived : List EngineeringReferenceDraft) :
    mergeEngineeringReferences (mergeEngineeringReferences persisted derived) derived =
      mergeEngineeringReferences persisted derived := by
  have sorted : (mergeEngineeringReferences persisted derived).Pairwise
      fun first second => first.sortKey ≤ second.sortKey := by
    have : Std.Total fun first second : EngineeringReferenceDraft =>
        first.sortKey ≤ second.sortKey := ⟨fun first second => le_total _ _⟩
    have : IsTrans EngineeringReferenceDraft fun first second =>
        first.sortKey ≤ second.sortKey := ⟨fun _ _ _ => le_trans⟩
    exact List.pairwise_insertionSort _ _
  have known : ∀ reference ∈ derived,
      Knows (mergeEngineeringReferences persisted derived) reference := fun reference member =>
    (knows_foldl member persisted).of_subset (List.perm_insertionSort _ _).symm.subset
  conv_lhs => rw [mergeEngineeringReferences, foldl_addReference_known known]
  exact List.Pairwise.insertionSort_eq sorted

/-! ### What calls keep -/

/-- A Claim keeps its texts, its References and its topic hint. -/
structure ClaimKept (before after : CheckpointClaim) : Prop where
  rest : { after with
    engineeringReferences := before.engineeringReferences
    topicKeyHint := before.topicKeyHint } = before
  references : before.engineeringReferences.Subperm after.engineeringReferences
  topic : ∀ hint, before.topicKeyHint = some hint → after.topicKeyHint = some hint

theorem ClaimKept.refl (claim : CheckpointClaim) : ClaimKept claim claim :=
  ⟨rfl, List.Subperm.refl _, fun _ => id⟩

theorem claimKept_trans (first second third : CheckpointClaim) (kept : ClaimKept first second)
    (later : ClaimKept second third) : ClaimKept first third where
  rest := by
    rw [← kept.rest, ← later.rest]
  references := kept.references.trans later.references
  topic hint known := later.topic hint (kept.topic hint known)

theorem claimKept_derivedClaim (claim : CheckpointClaim) :
    ClaimKept claim (derivedClaim resolver observations claim) where
  rest := rfl
  references := mergeEngineeringReferences_subperm _ _
  topic hint known := by
    rw [derivedClaim, known]
    rfl

structure CheckpointKept (before after : AgentCheckpoint) : Prop where
  checkpointId : after.checkpointId = before.checkpointId
  claims : List.Forall₂ ClaimKept before.claims after.claims

structure EpisodeKept (before after : EpisodeReferences) : Prop where
  episodeId : after.episodeId = before.episodeId
  observations : after.observations = before.observations
  checkpoints : List.Forall₂ CheckpointKept before.checkpoints after.checkpoints

def StoreKept (before after : ReferenceStore) : Prop :=
  List.Forall₂ EpisodeKept before.rows after.rows

theorem forall₂_trans {α : Type} {related : α → α → Prop}
    (transitive : ∀ first second third, related first second → related second third →
      related first third) {first second third : List α} (one : List.Forall₂ related first second)
    (two : List.Forall₂ related second third) : List.Forall₂ related first third := by
  induction one generalizing third with
  | nil =>
      cases two
      exact .nil
  | cons head _ ih =>
      cases two with
      | cons headToo tail => exact .cons (transitive _ _ _ head headToo) (ih tail)

theorem forall₂_map_self {α : Type} {related : α → α → Prop} {change : α → α} {items : List α}
    (changes : ∀ item ∈ items, related item (change item)) :
    List.Forall₂ related items (items.map change) := by
  rw [List.forall₂_map_right_iff, List.forall₂_same]
  exact changes

theorem CheckpointKept.refl (checkpoint : AgentCheckpoint) : CheckpointKept checkpoint checkpoint :=
  ⟨rfl, List.forall₂_same.mpr fun claim _ => ClaimKept.refl claim⟩

theorem checkpointKept_trans (first second third : AgentCheckpoint)
    (kept : CheckpointKept first second) (later : CheckpointKept second third) :
    CheckpointKept first third :=
  ⟨later.checkpointId.trans kept.checkpointId,
    forall₂_trans claimKept_trans kept.claims later.claims⟩

theorem EpisodeKept.refl (episode : EpisodeReferences) : EpisodeKept episode episode :=
  ⟨rfl, rfl, List.forall₂_same.mpr fun checkpoint _ => CheckpointKept.refl checkpoint⟩

theorem episodeKept_trans (first second third : EpisodeReferences)
    (kept : EpisodeKept first second) (later : EpisodeKept second third) :
    EpisodeKept first third :=
  ⟨later.episodeId.trans kept.episodeId, later.observations.trans kept.observations,
    forall₂_trans checkpointKept_trans kept.checkpoints later.checkpoints⟩

theorem StoreKept.refl (store : ReferenceStore) : StoreKept store store :=
  List.forall₂_same.mpr fun episode _ => EpisodeKept.refl episode

theorem StoreKept.trans {first second third : ReferenceStore} (kept : StoreKept first second)
    (later : StoreKept second third) : StoreKept first third :=
  forall₂_trans episodeKept_trans kept later

theorem episodeKept_derived (episode : EpisodeReferences) (resolver : ClaimResolver)
    (now : Nat) : EpisodeKept episode (episode.derived resolver now) :=
  ⟨rfl, rfl, forall₂_map_self fun _ _ =>
    ⟨rfl, forall₂_map_self fun claim _ => claimKept_derivedClaim claim⟩⟩

theorem episodeKept_reopen (episode : EpisodeReferences) : EpisodeKept episode episode.reopen :=
  ⟨rfl, rfl, List.forall₂_same.mpr fun checkpoint _ => CheckpointKept.refl checkpoint⟩

theorem storeKept_updateWhere (store : ReferenceStore) (condition : EpisodeReferences → Bool)
    (change : EpisodeReferences → EpisodeReferences)
    (keepsId : ∀ row, (change row).episodeId = row.episodeId)
    (keeps : ∀ row, EpisodeKept row (change row)) :
    StoreKept store (store.updateWhere condition change keepsId) := by
  refine forall₂_map_self fun row _ => ?_
  split
  · exact keeps row
  · exact EpisodeKept.refl row

variable {validate : EpisodeReferences → AgentCheckpoint → Result Unit}

theorem deriveEpisodeClaimReferences_cases
    (validate : EpisodeReferences → AgentCheckpoint → Result Unit) (store : ReferenceStore) (episodeId : WorkEpisodeId)
    (resolver : ClaimResolver) (clock : Int) :
    (deriveEpisodeClaimReferences validate store episodeId resolver clock).1 = store ∨
      ∃ now, (deriveEpisodeClaimReferences validate store episodeId resolver clock).1 =
        store.updateWhere (fun row => row.episodeId = episodeId)
          (fun row => row.derived resolver now) (fun _ => rfl) := by
  unfold deriveEpisodeClaimReferences
  split
  · exact Or.inl rfl
  · split
    · split
      · exact Or.inl rfl
      · exact Or.inr ⟨_, rfl⟩
    · exact Or.inl rfl

theorem storeKept_perform (store : ReferenceStore) (call : ReferenceCall) :
    StoreKept store (performReferenceCall validate store call) := by
  cases call with
  | derive episodeId resolver clock =>
      rw [performReferenceCall]
      rcases deriveEpisodeClaimReferences_cases validate store episodeId resolver clock with same | ⟨now, changed⟩
      · rw [same]
        exact StoreKept.refl store
      · rw [changed]
        exact storeKept_updateWhere _ _ _ _ fun row => episodeKept_derived row resolver now
  | reopen =>
      exact storeKept_updateWhere store EpisodeReferences.reopens EpisodeReferences.reopen
        (fun _ => rfl) episodeKept_reopen

theorem storeKept_performAll (store : ReferenceStore) (calls : List ReferenceCall) :
    StoreKept store (performReferenceCalls validate store calls) := by
  induction calls generalizing store with
  | nil => exact StoreKept.refl store
  | cons call rest ih => exact (storeKept_perform store call).trans (ih _)

/-! ### Deriving again -/

theorem derivedClaim_again (claim : CheckpointClaim) :
    derivedClaim resolver observations (derivedClaim resolver observations claim) =
      derivedClaim resolver observations claim := by
  have sameDerivation : claimDerivation resolver observations
      (derivedClaim resolver observations claim) =
        claimDerivation resolver observations claim := rfl
  rw [derivedClaim, sameDerivation]
  have sameReferences := mergeEngineeringReferences_again claim.engineeringReferences
    (claimDerivation resolver observations claim).engineeringReferences
  have sameTopic (topic derived : Option String) :
      ((topic <|> derived) <|> derived) = (topic <|> derived) := by
    cases topic with
    | none => cases derived <;> rfl
    | some hint => rfl
  rw [derivedClaim]
  simp only [sameReferences, sameTopic]

theorem deriveReports_again (checkpoints : List AgentCheckpoint) :
    deriveReports resolver observations (checkpoints.map (derivedCheckpoint resolver observations)) =
      deriveReports resolver observations checkpoints := by
  rw [deriveReports, deriveReports, List.flatMap_map]
  refine List.flatMap_congr fun checkpoint _ => ?_
  rw [derivedCheckpoint, List.map_map]
  refine List.map_congr_left fun claim _ => ?_
  rw [Function.comp_apply, derivedClaim_again]
  rfl

theorem derived_again (episode : EpisodeReferences) (resolver : ClaimResolver)
    (now later : Nat) :
    (episode.derived resolver now).derived resolver later = episode.derived resolver later := by
  have sameCheckpoints : (episode.checkpoints.map
      (derivedCheckpoint resolver episode.observations)).map
        (derivedCheckpoint resolver episode.observations) =
      episode.checkpoints.map (derivedCheckpoint resolver episode.observations) := by
    rw [List.map_map]
    refine List.map_congr_left fun checkpoint _ => ?_
    rw [Function.comp_apply, derivedCheckpoint, derivedCheckpoint, List.map_map]
    congr 1
    exact List.map_congr_left fun claim _ => derivedClaim_again claim
  simp only [EpisodeReferences.derived, sameCheckpoints, deriveReports_again]

/-- The Claims of an Episode and its recorded ambiguity. -/
def EpisodeReferences.answers (episode : EpisodeReferences) :
    WorkEpisodeId × List AgentCheckpoint × Option (Finset AmbiguousMention) :=
  (episode.episodeId, episode.checkpoints, episode.record.map (·.ambiguous))

theorem deriveEpisodeClaimReferences_ok {store after : ReferenceStore}
    {episodeId : WorkEpisodeId} {clock : Int} {reports : List DerivedClaimReferences}
    (ran : deriveEpisodeClaimReferences validate store episodeId resolver clock =
      (after, .ok reports)) :
    (after = store ∧ ∃ episode, store.find? episodeId = some episode ∧
      episode.derives resolver = false) ∨
    ∃ now, after = store.updateWhere (fun row => row.episodeId = episodeId)
      (fun row => row.derived resolver now) (fun _ => rfl) := by
  unfold deriveEpisodeClaimReferences at ran
  split at ran
  · cases ran
  · rename_i episode found
    split at ran
    · split at ran
      · cases ran
      · rename_i now _
        cases ran
        exact Or.inr ⟨now, rfl⟩
    · rename_i replays
      cases ran
      exact Or.inl ⟨rfl, episode, found, Bool.eq_false_iff.mpr replays⟩

theorem answers_derive_again {store first : ReferenceStore} {episodeId : WorkEpisodeId}
    {clock : Int} {reports : List DerivedClaimReferences}
    (ran : deriveEpisodeClaimReferences validate store episodeId resolver clock =
      (first, .ok reports)) (later : Int) :
    (deriveEpisodeClaimReferences validate first episodeId resolver later).1.rows.map
        EpisodeReferences.answers = first.rows.map EpisodeReferences.answers := by
  rcases deriveEpisodeClaimReferences_ok ran with ⟨rfl, episode, found, replays⟩ | ⟨now, rfl⟩
  · rw [deriveEpisodeClaimReferences, found]
    simp only [replays, Bool.false_eq_true, if_false]
  · rcases deriveEpisodeClaimReferences_cases validate
      (store.updateWhere (fun row => row.episodeId = episodeId)
        (fun row => row.derived resolver now) (fun _ => rfl)) episodeId resolver later with
      same | ⟨again, changed⟩
    · rw [same]
    · rw [changed]
      simp only [Table.updateWhere, List.map_map]
      refine List.map_congr_left fun row _ => ?_
      simp only [Function.comp_apply]
      by_cases isEpisode : row.episodeId = episodeId
      · have keepsId : (row.derived resolver now).episodeId = episodeId := isEpisode
        simp only [isEpisode, keepsId, decide_true, if_true, derived_again]
        rfl
      · simp only [isEpisode, decide_false, Bool.false_eq_true, if_false]

end SharedContext
