import SharedContext.EngineeringGraph.Resolver
import SharedContext.EngineeringGraph.ScanEvidence
import SharedContext.Library.Table

/-!
# What a rebuild answers

The entries of a projection are the answers for its references, and what an
answer says follows from the evidence of the snapshot it was resolved against.
-/

namespace SharedContext.EngineeringGraph

/-! ### Outcomes by repository -/

theorem outcomeOf_eq_some {snapshots : List RepositoryScanOutcome} {repositoryId : RepositoryId}
    {outcome : RepositoryScanOutcome}
    (distinct : (snapshots.map RepositoryScanOutcome.repositoryId).Nodup) :
    outcomeOf snapshots repositoryId = some outcome ↔
      outcome ∈ snapshots ∧ outcome.repositoryId = repositoryId :=
  let table : Table RepositoryScanOutcome RepositoryScanOutcome.repositoryId := ⟨snapshots, distinct⟩
  (Table.find?_eq_some : table.find? repositoryId = some outcome ↔ _)

theorem snapshotMap_eq_ok {snapshots ordered : List RepositoryScanOutcome}
    (mapped : snapshotMap snapshots = .ok ordered) :
    (snapshots.map RepositoryScanOutcome.repositoryId).Nodup ∧ ordered.Perm snapshots := by
  simp only [snapshotMap, Result.bind_eq_ok, Result.exists_unit, Result.require_eq_ok,
    Result.pure_eq_ok] at mapped
  obtain ⟨distinct, rfl⟩ := mapped
  exact ⟨distinct, List.perm_insertionSort _ _⟩

theorem outcomeOf_ordered {snapshots ordered : List RepositoryScanOutcome}
    (mapped : snapshotMap snapshots = .ok ordered) (repositoryId : RepositoryId) :
    outcomeOf ordered repositoryId = outcomeOf snapshots repositoryId := by
  obtain ⟨distinct, same⟩ := snapshotMap_eq_ok mapped
  have orderedDistinct : (ordered.map RepositoryScanOutcome.repositoryId).Nodup :=
    (same.map _).nodup_iff.mpr distinct
  apply Option.ext
  intro outcome
  rw [outcomeOf_eq_some orderedDistinct, outcomeOf_eq_some distinct, same.mem_iff]

/-! ### The entries of a projection -/

section Entries

variable {digest : GenerationDigest} {previous : Option EngineeringProjection}
  {references : List ProjectedEngineeringReference} {snapshots : List RepositoryScanOutcome}
  {contexts : List GraphContextSnapshot} {projection : EngineeringProjection}

/-- Each reference is answered once, under the generation of the projection. -/
structure Answers (previous : Option EngineeringProjection)
    (references : List ProjectedEngineeringReference) (snapshots : List RepositoryScanOutcome)
    (projection : EngineeringProjection) : Prop where
  distinct : (references.map fun projected => projected.reference.referenceId).Nodup
  repositories : (snapshots.map RepositoryScanOutcome.repositoryId).Nodup
  valid : ∀ projected ∈ references, projected.validate = .ok ()
  answered : ∀ projected ∈ references, ∃ base,
    resolveReference previous snapshots projected = .ok base ∧
      { base with artifactGeneration := projection.artifactGeneration } ∈ projection.references
  asked : ∀ entry ∈ projection.references, ∃ projected ∈ references, ∃ base,
    resolveReference previous snapshots projected = .ok base ∧
      entry = { base with artifactGeneration := projection.artifactGeneration }
  identified : (projection.references.map ResolvedReferenceProjection.referenceId).Nodup

theorem resolveReference_ordered {ordered : List RepositoryScanOutcome}
    (mapped : snapshotMap snapshots = .ok ordered) (projected : ProjectedEngineeringReference) :
    resolveReference previous ordered projected = resolveReference previous snapshots projected := by
  unfold resolveReference
  rw [outcomeOf_ordered mapped]

theorem resolveAgainst_answers
    (resolved : resolveAgainst digest previous references snapshots contexts = .ok projection) :
    Answers previous references snapshots projection := by
  simp only [resolveAgainst, Result.bind_eq_ok, Result.exists_unit, Result.require_eq_ok,
    Result.pure_eq_ok] at resolved
  obtain ⟨-, ordered, mapped, entries, traversed, distinct, valid, rfl⟩ := resolved
  have sorted : (references.insertionSort referenceInOrder).Perm references :=
    List.perm_insertionSort _ _
  obtain ⟨forward, backward⟩ := Result.mapM_members traversed
  simp only [resolveReference_ordered mapped] at forward backward
  have identified := by
    simp only [EngineeringProjection.validate, Result.bind_eq_ok, Result.exists_unit,
      Result.require_eq_ok] at valid
    exact valid.2.2.2.2.1
  refine ⟨?_, (snapshotMap_eq_ok mapped).1, ?_, ?_, ?_, identified⟩
  · exact (sorted.map _).nodup_iff.mp distinct
  · intro projected listed
    obtain ⟨entry, -, answered⟩ := forward projected (sorted.mem_iff.mpr listed)
    unfold resolveReference at answered
    exact (Result.seq_eq_ok.mp answered).1
  · intro projected listed
    obtain ⟨base, entered, answered⟩ := forward projected (sorted.mem_iff.mpr listed)
    exact ⟨base, answered, List.mem_map.mpr ⟨base, entered, rfl⟩⟩
  · intro entry listed
    obtain ⟨base, entered, rfl⟩ := List.mem_map.mp listed
    obtain ⟨projected, asked, answered⟩ := backward base entered
    exact ⟨projected, sorted.mem_iff.mp asked, base, answered, rfl⟩

end Entries

/-! ### One answer -/

section OneAnswer

variable {projected : ProjectedEngineeringReference}

/-- What every answer for a reference names. -/
structure Names (projected : ProjectedEngineeringReference)
    (entry : ResolvedReferenceProjection) : Prop where
  reference : entry.referenceId = projected.reference.referenceId
  context : entry.contextId = projected.contextId
  revision : entry.revisionId = projected.revisionId
  locator : entry.locator = some projected.reference.locator

theorem projectionForStatus_eq_ok {generation : Option String} {status : ResolutionStatus}
    {resolvedArtifact : Option ArtifactKey} {artifacts : List EngineeringArtifact}
    {evidence : List CandidateMatchEvidence} {explanation : String}
    {entry : ResolvedReferenceProjection}
    (built : projectionForStatus projected generation status resolvedArtifact artifacts evidence
      explanation = .ok entry) :
    Names projected entry ∧ entry.resolution.status = status := by
  simp only [projectionForStatus, Result.bind_eq_ok, Result.exists_unit, Result.pure_eq_ok] at built
  obtain ⟨-, rfl⟩ := built
  exact ⟨⟨rfl, rfl, rfl, rfl⟩, rfl⟩

theorem projectionForResolved_eq_ok {snapshot : RepositorySnapshot} {candidate : SnapshotArtifact}
    {entry : ResolvedReferenceProjection}
    (built : projectionForResolved projected snapshot candidate = .ok entry) :
    Names projected entry ∧ entry.resolution.status = .resolved := by
  simp only [projectionForResolved, Result.bind_eq_ok, Result.exists_unit,
    Result.pure_eq_ok] at built
  obtain ⟨-, base, based, rfl⟩ := built
  obtain ⟨⟨reference, context, revision, locator⟩, status⟩ := projectionForStatus_eq_ok based
  exact ⟨⟨reference, context, revision, locator⟩, status⟩

/-- Whether a snapshot holds an artifact under the locator of a reference. -/
def holdsArtifact (projected : ProjectedEngineeringReference) (snapshot : RepositorySnapshot) :
    Bool :=
  !(winningCandidates projected.reference snapshot.artifacts).isEmpty

/-- The status of an answer: found, absent from what was read, or not read. -/
theorem resolveOne_status {snapshot : RepositorySnapshot} {entry : ResolvedReferenceProjection}
    (resolved : resolveOne projected (some (.available snapshot)) = .ok entry) :
    Names projected entry ∧
      if holdsArtifact projected snapshot then
        entry.resolution.status = .resolved ∨ entry.resolution.status = .ambiguous
      else entry.resolution.status =
        if snapshotCovers snapshot projected.reference.locator then .missing else .unavailable := by
  unfold holdsArtifact
  unfold resolveOne at resolved
  cases found : winningCandidates projected.reference snapshot.artifacts with
  | nil =>
      simp only [found] at resolved
      cases covers : snapshotCovers snapshot projected.reference.locator with
      | true =>
          obtain ⟨names, status⟩ := projectionForStatus_eq_ok (by simpa [covers] using resolved)
          exact ⟨names, by simp [status]⟩
      | false =>
          simp only [covers, Bool.not_false, if_true] at resolved
          obtain ⟨names, status⟩ := projectionForStatus_eq_ok resolved
          exact ⟨names, by simp [status]⟩
  | cons first rest =>
      have answered : Names projected entry ∧
          (entry.resolution.status = .resolved ∨ entry.resolution.status = .ambiguous) := by
        cases rest with
        | nil =>
            simp only [found] at resolved
            split at resolved
            · exact (projectionForResolved_eq_ok resolved).imp_right .inl
            · exact (projectionForStatus_eq_ok resolved).imp_right .inr
        | cons second rest =>
            simp only [found] at resolved
            exact (projectionForStatus_eq_ok resolved).imp_right .inr
      exact ⟨answered.1, by simpa using answered.2⟩

theorem resolveOne_names {outcome : Option RepositoryScanOutcome}
    {entry : ResolvedReferenceProjection} (resolved : resolveOne projected outcome = .ok entry) :
    Names projected entry := by
  match outcome with
  | none => exact (projectionForStatus_eq_ok resolved).1
  | some (.unavailable repositoryId reason) => exact (projectionForStatus_eq_ok resolved).1
  | some (.available snapshot) => exact (resolveOne_status resolved).1

theorem carryForward_eq_some {previous : Option EngineeringProjection}
    {outcome : Option RepositoryScanOutcome} {carried : ResolvedReferenceProjection}
    (kept : carryForward projected previous outcome = some carried) :
    Names projected carried ∧ ∃ prior ∈ previous, carried ∈ prior.references := by
  match outcome with
  | none => simp [carryForward] at kept
  | some (.unavailable repositoryId reason) => simp [carryForward] at kept
  | some (.available snapshot) =>
      simp only [carryForward] at kept
      split at kept
      · simp at kept
      · obtain ⟨prior, given, found⟩ := Option.bind_eq_some_iff.mp kept
        have matched := List.find?_some found
        simp only [Bool.and_eq_true, decide_eq_true_eq] at matched
        exact ⟨⟨matched.1.1.1.1, matched.1.1.1.2, matched.1.1.2, matched.1.2⟩, prior, given,
          List.mem_of_find?_eq_some found⟩

theorem resolveReference_eq_ok {previous : Option EngineeringProjection}
    {snapshots : List RepositoryScanOutcome} {base : ResolvedReferenceProjection} :
    resolveReference previous snapshots projected = .ok base ↔ projected.validate = .ok () ∧
      ∃ answer, resolveOne projected (outcomeOf snapshots projected.reference.repositoryId) =
          .ok answer ∧
        (carryForward projected previous (outcomeOf snapshots projected.reference.repositoryId)).getD
          answer = base := by
  simp only [resolveReference, Result.bind_eq_ok, Result.exists_unit, Result.pure_eq_ok]

theorem resolveReference_names {previous : Option EngineeringProjection}
    {snapshots : List RepositoryScanOutcome} {base : ResolvedReferenceProjection}
    (resolved : resolveReference previous snapshots projected = .ok base) :
    Names projected base := by
  obtain ⟨-, answer, answered, rfl⟩ := resolveReference_eq_ok.mp resolved
  cases kept : carryForward projected previous
      (outcomeOf snapshots projected.reference.repositoryId) with
  | none => exact resolveOne_names answered
  | some carried => exact (carryForward_eq_some kept).1

theorem carryForward_none (outcome : Option RepositoryScanOutcome) :
    carryForward projected none outcome = none := by
  match outcome with
  | none => rfl
  | some (.unavailable repositoryId reason) => rfl
  | some (.available snapshot) =>
      unfold carryForward
      exact ite_self none

end OneAnswer

end SharedContext.EngineeringGraph
