import SharedContext.EngineeringGraph.GraphSnapshots
import SharedContext.EngineeringGraph.Resolution

/-!
# Resolving over a build

Over the snapshots of a build, every rebuild of the graph with references to
those snapshots and with one well-formed outcome for each repository succeeds,
and what it returns passes its own check.
-/

namespace SharedContext.EngineeringGraph

/-! ### Well-formed outcomes -/

/-- A snapshot as scans make them: its artifacts are valid, under one key each. -/
structure RepositorySnapshot.WellFormed (snapshot : RepositorySnapshot) : Prop where
  valid : ∀ found ∈ snapshot.artifacts, found.artifact.validate = .ok ()
  distinct : (snapshot.artifacts.map fun found => found.artifact.artifactKey).Nodup

def RepositoryScanOutcome.WellFormed : RepositoryScanOutcome → Prop
  | .available snapshot => snapshot.WellFormed
  | .unavailable .. => True

/-! ### Texts -/

theorem isBlank_append {first second : String} (notBlank : isBlank first = false) :
    isBlank (first ++ second) = false := by
  simp only [isBlank, List.all_eq_false] at notBlank ⊢
  obtain ⟨character, member, notSpace⟩ := notBlank
  exact ⟨character, by simp [member], notSpace⟩

theorem matchExplanation_notBlank (basis : MatchBasis) (key : ArtifactKey) :
    isBlank (matchExplanation basis key) = false := by
  unfold matchExplanation
  exact isBlank_append (isBlank_append (isBlank_append (by decide)))

/-! ### One reference -/

section OneReference

variable {projected : ProjectedEngineeringReference}

theorem reference_valid {reference : EngineeringReference}
    (valid : reference.validate = .ok ()) :
    reference.relation.supports reference.artifactKind = true ∧
      reference.locator.validate = .ok () ∧ reference.locator.kind = reference.artifactKind := by
  cases supported : reference.relation.supports reference.artifactKind with
  | false => simp [EngineeringReference.validate, supported] at valid
  | true =>
      by_cases sameKind : reference.locator.kind = reference.artifactKind
      · simp only [EngineeringReference.validate, supported, Bool.not_true, Bool.false_eq_true,
          if_false, sameKind, ne_eq, not_true_eq_false, Result.seq_eq_ok,
          Result.context_eq_ok] at valid
        exact ⟨rfl, valid.1, sameKind⟩
      · simp [EngineeringReference.validate, supported, sameKind] at valid

theorem associationKind_supports {relation : ReferenceRelation} {kind : ArtifactKind}
    (supported : relation.supports kind = true) :
    (associationKind relation kind).supports kind = true := by
  cases relation <;> cases kind <;> first | rfl | cases supported

def referenceKey (reference : EngineeringReference) : ArtifactKey :=
  ⟨reference.repositoryId, reference.locator⟩

theorem winningCandidates_spec {reference : EngineeringReference} {snapshot : RepositorySnapshot}
    (wellFormed : snapshot.WellFormed) {found : SnapshotArtifact}
    (wins : found ∈ winningCandidates reference snapshot.artifacts) :
    found.artifact.validate = .ok () ∧ found.artifact.artifactKey = referenceKey reference := by
  simp only [winningCandidates, List.mem_filter, Bool.and_eq_true, decide_eq_true_eq] at wins
  obtain ⟨⟨member, isRepository, -⟩, isLocator⟩ := wins
  have valid := wellFormed.valid found member
  refine ⟨valid, ?_⟩
  simp only [EngineeringArtifact.validate, Result.seq_eq_ok, Result.require_eq_ok] at valid
  obtain ⟨-, -, -, sameRepository⟩ := valid
  obtain ⟨⟨repository, ⟨repositoryId, locator⟩, displayName⟩, observations⟩ := found
  simp only at isRepository isLocator sameRepository
  simp only [referenceKey, ← isRepository, sameRepository, isLocator]

theorem winningCandidates_cases (reference : EngineeringReference) {snapshot : RepositorySnapshot}
    (wellFormed : snapshot.WellFormed) :
    winningCandidates reference snapshot.artifacts = [] ∨
      ∃ found, winningCandidates reference snapshot.artifacts = [found] := by
  have distinct : ((winningCandidates reference snapshot.artifacts).map
      fun found => found.artifact.artifactKey).Nodup :=
    wellFormed.distinct.sublist
      ((List.filter_sublist.trans List.filter_sublist).map _)
  cases winners : winningCandidates reference snapshot.artifacts with
  | nil => exact .inl rfl
  | cons first rest =>
      cases rest with
      | nil => exact .inr ⟨first, rfl⟩
      | cons second rest =>
          have isFirst : first ∈ winningCandidates reference snapshot.artifacts := by simp [winners]
          have isSecond : second ∈ winningCandidates reference snapshot.artifacts := by
            simp [winners]
          rw [winners] at distinct
          have same := (winningCandidates_spec wellFormed isFirst).2.trans
            (winningCandidates_spec wellFormed isSecond).2.symm
          simp [same] at distinct

/-- An entry that answers a reference and passes its own check. -/
structure Answer (projected : ProjectedEngineeringReference)
    (entry : ResolvedReferenceProjection) : Prop where
  names : Names projected entry
  valid : entry.validate = .ok ()

theorem projectionForStatus_absent {generation : Option String} {status : ResolutionStatus}
    (absent : status = .missing ∨ status = .unavailable) {evidence : List CandidateMatchEvidence}
    (bounded : ∀ each ∈ evidence, 0 ≤ each.confidence ∧ each.confidence ≤ 1)
    {explanation : String} (notBlank : isBlank explanation = false) :
    ∃ entry, projectionForStatus projected generation status none [] evidence explanation =
      .ok entry ∧ Answer projected entry := by
  have passes : ArtifactResolution.validate
      ⟨projected.reference.referenceId, projected.reference.repositoryId, status, none, [],
        explanation⟩ = .ok () := by
    refine ArtifactResolution.validate_eq_ok.mpr ⟨notBlank, by simp, .nil, by simp, ?_⟩
    rcases absent with rfl | rfl <;> rfl
  let entry : ResolvedReferenceProjection :=
    { contextId := projected.contextId
      revisionId := projected.revisionId
      referenceId := projected.reference.referenceId
      locator := some projected.reference.locator
      repositoryGeneration := generation
      artifactGeneration := ""
      resolution := ⟨projected.reference.referenceId, projected.reference.repositoryId, status,
        none, [], explanation⟩
      association := none
      artifacts := []
      evidence := evidence }
  have valid : entry.validate = .ok () := by
    refine ResolvedReferenceProjection.validate_eq_ok.mpr ⟨passes, rfl, ?_, ?_, by simp [entry],
      .nil, ?_⟩
    · rcases absent with rfl | rfl <;> rfl
    · simpa [entry] using bounded
    · rcases absent with rfl | rfl <;> rfl
  refine ⟨entry, ?_, ⟨rfl, rfl, rfl, rfl⟩, valid⟩
  rcases absent with rfl | rfl <;> exact Result.seq_eq_ok.mpr ⟨passes, rfl⟩

/-- The artifact that answers a reference passes its own check and has its key. -/
structure Wins (projected : ProjectedEngineeringReference) (candidate : SnapshotArtifact) :
    Prop where
  reference : projected.validate = .ok ()
  valid : candidate.artifact.validate = .ok ()
  key : candidate.artifact.artifactKey = referenceKey projected.reference

theorem Wins.keyValid {candidate : SnapshotArtifact} (wins : Wins projected candidate) :
    candidate.artifact.artifactKey.validate = .ok () := by
  rw [wins.key]
  exact (reference_valid wins.reference).2.1

def foundResolution (projected : ProjectedEngineeringReference) (key : ArtifactKey)
    (status : ResolutionStatus) (explanation : String) : ArtifactResolution :=
  { referenceId := projected.reference.referenceId
    repositoryId := projected.reference.repositoryId
    status := status
    resolvedArtifact := if status = .resolved then some key else none
    candidates := [key]
    explanation := explanation }

theorem Wins.resolution_valid {candidate : SnapshotArtifact} (wins : Wins projected candidate)
    {status : ResolutionStatus} (present : status = .resolved ∨ status = .ambiguous)
    {explanation : String} (notBlank : isBlank explanation = false) :
    (foundResolution projected candidate.artifact.artifactKey status explanation).validate =
      .ok () := by
  have sameRepository : candidate.artifact.artifactKey.repositoryId =
      projected.reference.repositoryId := by
    rw [wins.key]
    rfl
  refine ArtifactResolution.validate_eq_ok.mpr ⟨notBlank, ?_, ?_, ?_, ?_⟩
  · intro key member
    obtain rfl := List.mem_singleton.mp member
    exact ⟨wins.keyValid, sameRepository⟩
  · exact List.nodup_singleton _
  · intro key member
    rcases present with rfl | rfl
    · obtain rfl := Option.some.inj member
      exact ⟨wins.keyValid, sameRepository⟩
    · cases member
  · rcases present with rfl | rfl <;> simp [foundResolution, ArtifactResolution.validShape]

def foundEntry (projected : ProjectedEngineeringReference) (snapshot : RepositorySnapshot)
    (candidate : SnapshotArtifact) (status : ResolutionStatus) (explanation : String)
    (association : Option ContextArtifactAssociation) : ResolvedReferenceProjection :=
  { contextId := projected.contextId
    revisionId := projected.revisionId
    referenceId := projected.reference.referenceId
    locator := some projected.reference.locator
    repositoryGeneration := some snapshot.generation
    artifactGeneration := ""
    resolution := foundResolution projected candidate.artifact.artifactKey status explanation
    association := association
    artifacts := [candidate.artifact]
    evidence := [candidateEvidence projected candidate] }

theorem locatorConfidence (locator : ArtifactLocator) : (locatorMatchBasis locator).confidence = 1 := by
  cases locator <;> rfl

theorem Wins.entry_valid {candidate : SnapshotArtifact} (wins : Wins projected candidate)
    {snapshot : RepositorySnapshot} {status : ResolutionStatus}
    (present : status = .resolved ∨ status = .ambiguous) {explanation : String}
    (notBlank : isBlank explanation = false) {association : Option ContextArtifactAssociation}
    (associated : (foundEntry projected snapshot candidate status explanation
      association).validateAssociation = .ok ()) :
    Answer projected (foundEntry projected snapshot candidate status explanation association) := by
  refine ⟨⟨rfl, rfl, rfl, rfl⟩, ResolvedReferenceProjection.validate_eq_ok.mpr
    ⟨wins.resolution_valid present notBlank, rfl, associated, ?_, ?_, List.nodup_singleton _, ?_⟩⟩
  · have certain := locatorConfidence projected.reference.locator
    simp [foundEntry, candidateEvidence, certain]
  · intro artifact member
    obtain rfl := List.mem_singleton.mp member
    exact wins.valid
  · rcases present with rfl | rfl <;>
      simp [foundEntry, foundResolution, ResolvedReferenceProjection.expectedKeys]

def ambiguousExplanation : String :=
  "Multiple Artifacts share equal highest-precedence evidence; lower path/time hints were not used to choose"

theorem projectionForAmbiguous_ok {candidate : SnapshotArtifact} (wins : Wins projected candidate)
    (snapshot : RepositorySnapshot) :
    ∃ entry, projectionForAmbiguous projected snapshot [candidate] = .ok entry ∧
      Answer projected entry := by
  have present : ResolutionStatus.ambiguous = .resolved ∨ ResolutionStatus.ambiguous = .ambiguous :=
    .inr rfl
  have notBlank : isBlank ambiguousExplanation = false := by decide
  exact ⟨foundEntry projected snapshot candidate .ambiguous ambiguousExplanation none,
    Result.seq_eq_ok.mpr ⟨wins.resolution_valid present notBlank, rfl⟩,
    wins.entry_valid present notBlank rfl⟩

theorem projectionForResolved_ok {candidate : SnapshotArtifact} (wins : Wins projected candidate)
    (snapshot : RepositorySnapshot) :
    ∃ entry, projectionForResolved projected snapshot candidate = .ok entry ∧
      Answer projected entry := by
  have present : ResolutionStatus.resolved = .resolved ∨ ResolutionStatus.resolved = .ambiguous :=
    .inl rfl
  let key := candidate.artifact.artifactKey
  let evidence := candidateEvidence projected candidate
  let association : ContextArtifactAssociation :=
    { contextId := projected.contextId
      revisionId := projected.revisionId
      artifactKey := key
      kind := associationKind projected.reference.relation key.kind
      sourceReferenceIds := [projected.reference.referenceId]
      confidence := evidence.confidence
      explanation := evidence.explanation }
  have certain : evidence.confidence = 1 := locatorConfidence projected.reference.locator
  have associated : association.validate = .ok () := by
    obtain ⟨supported, -, sameKind⟩ := reference_valid wins.reference
    have kind : key.kind = projected.reference.artifactKind := by
      change candidate.artifact.artifactKey.kind = _
      rw [wins.key]
      exact sameKind
    simp only [ContextArtifactAssociation.validate, Result.seq_eq_ok, Result.require_eq_ok,
      requireText_eq_ok]
    refine ⟨wins.keyValid, ?_, ?_, by simp [association], by simp [association], ?_⟩
    · change (associationKind projected.reference.relation key.kind).supports key.kind = true
      rw [kind]
      exact associationKind_supports supported
    · change 0 < evidence.confidence ∧ evidence.confidence ≤ 1
      rw [certain]
      exact ⟨by decide, by decide⟩
    · exact matchExplanation_notBlank _ _
  refine ⟨foundEntry projected snapshot candidate .resolved resolvedExplanation (some association),
    ?_, wins.entry_valid present (by decide) ?_⟩
  · refine Result.seq_eq_ok.mpr ⟨associated, ?_⟩
    refine Result.bind_eq_ok.mpr
      ⟨foundEntry projected snapshot candidate .resolved resolvedExplanation none, ?_, rfl⟩
    exact Result.seq_eq_ok.mpr ⟨wins.resolution_valid present (by decide), rfl⟩
  · exact Result.seq_eq_ok.mpr ⟨associated, Result.require_eq_ok.mpr ⟨rfl, rfl, rfl⟩⟩

theorem resolveOne_ok {outcome : Option RepositoryScanOutcome}
    (valid : projected.validate = .ok ())
    (wellFormed : ∀ given ∈ outcome, RepositoryScanOutcome.WellFormed given) :
    ∃ entry, resolveOne projected outcome = .ok entry ∧ Answer projected entry := by
  have unavailable : ∀ (generation : Option String) {explanation : String},
      isBlank explanation = false → ∃ entry,
        projectionForUnavailable projected generation explanation = .ok entry ∧
          Answer projected entry := by
    intro generation explanation notBlank
    exact projectionForStatus_absent (.inr rfl) (by simp [MatchBasis.confidence]) notBlank
  match outcome with
  | none =>
      have notBlank : isBlank "Repository snapshot unavailable" = false := by decide
      exact unavailable none notBlank
  | some (.unavailable repositoryId reason) =>
      have notBlank : isBlank s!"Repository unavailable: {reason}" = false :=
        isBlank_append (by decide)
      exact unavailable none notBlank
  | some (.available snapshot) =>
      have snapshotFormed : snapshot.WellFormed := wellFormed _ rfl
      rcases winningCandidates_cases projected.reference snapshotFormed with winners | ⟨found, winners⟩
      · simp only [resolveOne, winners]
        split
        · have notBlank : isBlank unscannedExplanation = false := by decide
          exact unavailable _ notBlank
        · have notBlank : isBlank missingExplanation = false := by decide
          exact projectionForStatus_absent (.inl rfl) (by simp) notBlank
      · have isWinner : found ∈ winningCandidates projected.reference snapshot.artifacts := by
          simp [winners]
        obtain ⟨foundValid, key⟩ := winningCandidates_spec snapshotFormed isWinner
        have wins : Wins projected found := ⟨valid, foundValid, key⟩
        simp only [resolveOne, winners]
        split
        · exact projectionForResolved_ok wins snapshot
        · exact projectionForAmbiguous_ok wins snapshot

theorem outcomeOf_wellFormed {outcomes : List RepositoryScanOutcome}
    (repositoryId : RepositoryId)
    (wellFormed : ∀ outcome ∈ outcomes, RepositoryScanOutcome.WellFormed outcome) :
    ∀ given ∈ outcomeOf outcomes repositoryId, RepositoryScanOutcome.WellFormed given :=
  fun _ found => wellFormed _ (List.mem_of_find?_eq_some found)

theorem resolveReference_ok {previous : Option EngineeringProjection}
    {outcomes : List RepositoryScanOutcome}
    (priorValid : ∀ prior ∈ previous, prior.validate = .ok ())
    (wellFormed : ∀ outcome ∈ outcomes, RepositoryScanOutcome.WellFormed outcome)
    (valid : projected.validate = .ok ()) :
    ∃ entry, resolveReference previous outcomes projected = .ok entry ∧ Answer projected entry := by
  obtain ⟨answer, answered, isAnswer⟩ := resolveOne_ok valid
    (outcomeOf_wellFormed projected.reference.repositoryId wellFormed)
  refine ⟨_, resolveReference_eq_ok.mpr ⟨valid, answer, answered, rfl⟩, ?_⟩
  cases kept : carryForward projected previous
      (outcomeOf outcomes projected.reference.repositoryId) with
  | none => exact isAnswer
  | some carried =>
      obtain ⟨names, prior, isPrior, member⟩ := carryForward_eq_some kept
      have passes := priorValid prior isPrior
      simp only [EngineeringProjection.validate, Result.seq_eq_ok, Result.forM_eq_ok,
        EngineeringProjection.validateReference] at passes
      exact ⟨names, (passes.2.2.2.1 carried member).1⟩

end OneReference

/-! ### All references -/

section Rebuild

variable {snapshots : List GraphContextSnapshot} {projection : DomainProjection}
  {references : List ProjectedEngineeringReference}

theorem spaceOf_eq_some {engineering : EngineeringProjection}
    (once : (engineering.contexts.map GraphContextSnapshot.key).Nodup)
    {context : GraphContextSnapshot} (member : context ∈ engineering.contexts) :
    engineering.spaceOf context.key = some context.spaceId := by
  have found : engineering.contexts.find? (fun other => other.key = context.key) =
      some context := by
    refine (find?_eq_some_of_unique ?_).mpr ⟨member, by simp⟩
    intro first isFirst second isSecond firstMatches secondMatches
    rw [decide_eq_true_eq] at firstMatches secondMatches
    exact List.inj_on_of_nodup_map once isFirst isSecond (firstMatches.trans secondMatches.symm)
  rw [EngineeringProjection.spaceOf, found]
  rfl

theorem inOrder_total : Std.Total GraphContextSnapshot.inOrder :=
  ⟨fun first second => le_total (toLex first.key) (toLex second.key)⟩

theorem referenceInOrder_total : Std.Total referenceInOrder :=
  ⟨fun first second => le_total first.reference.referenceId second.reference.referenceId⟩

theorem referenceInOrder_trans : IsTrans ProjectedEngineeringReference referenceInOrder :=
  ⟨fun _ _ _ => le_trans⟩

theorem inOrder_trans : IsTrans GraphContextSnapshot GraphContextSnapshot.inOrder :=
  ⟨fun _ _ _ => le_trans⟩

theorem GraphBuild.validateContexts (built : GraphBuild projection references snapshots)
    {engineering : EngineeringProjection}
    (contexts : engineering.contexts = snapshots.insertionSort GraphContextSnapshot.inOrder) :
    engineering.validateContexts = .ok () := by
  have sorted : engineering.contexts.Perm snapshots := by
    rw [contexts]
    exact List.perm_insertionSort _ _
  have once : (engineering.contexts.map GraphContextSnapshot.key).Nodup :=
    (sorted.map _).nodup_iff.mpr built.once
  have inOrder : engineering.contexts.Pairwise GraphContextSnapshot.inOrder := by
    rw [contexts]
    have := inOrder_total
    have := inOrder_trans
    exact List.pairwise_insertionSort _ _
  simp only [EngineeringProjection.validateContexts, Result.seq_eq_ok, Result.require_eq_ok,
    Result.forM_eq_ok, Bool.not_eq_true']
  refine ⟨fun context member => built.valid context (sorted.mem_iff.mp member), once,
    windowsAny_eq_false (inOrder.imp fun before => by simpa using before), ?_⟩
  rw [List.all_eq_true]
  intro context member
  rw [List.all_eq_true]
  intro relation isRelation
  obtain ⟨target, isTarget, isSpace, isKey⟩ :=
    built.closed context (sorted.mem_iff.mp member) relation isRelation
  rw [decide_eq_true_eq, ← isKey, ← isSpace]
  exact spaceOf_eq_some once (sorted.mem_iff.mpr isTarget)

/-- A rebuild over the snapshots of a build. -/
structure Rebuildable (snapshots : List GraphContextSnapshot)
    (previous : Option EngineeringProjection) (asked : List ProjectedEngineeringReference)
    (outcomes : List RepositoryScanOutcome) : Prop where
  prior : ∀ prior ∈ previous, prior.validate = .ok ()
  valid : ∀ projected ∈ asked, projected.validate = .ok ()
  captured : ∀ projected ∈ asked,
    (projected.contextId, projected.revisionId) ∈ snapshots.map GraphContextSnapshot.key
  distinct : (asked.map fun projected => projected.reference.referenceId).Nodup
  repositories : (outcomes.map RepositoryScanOutcome.repositoryId).Nodup
  wellFormed : ∀ outcome ∈ outcomes, RepositoryScanOutcome.WellFormed outcome

theorem GraphBuild.resolveAgainst_ok (built : GraphBuild projection references snapshots)
    (digest : GenerationDigest) {previous : Option EngineeringProjection}
    {asked : List ProjectedEngineeringReference} {outcomes : List RepositoryScanOutcome}
    (rebuildable : Rebuildable snapshots previous asked outcomes) :
    ∃ engineering, resolveAgainst digest previous asked outcomes snapshots = .ok engineering ∧
      engineering.validate = .ok () := by
  have sorted : (asked.insertionSort referenceInOrder).Perm asked := List.perm_insertionSort _ _
  let ordered := outcomes.insertionSort fun first second =>
    first.repositoryId.text ≤ second.repositoryId.text
  have mapped : snapshotMap outcomes = .ok ordered :=
    Result.seq_eq_ok.mpr ⟨Result.require_eq_ok.mpr rebuildable.repositories, rfl⟩
  have orderedFormed : ∀ outcome ∈ ordered, RepositoryScanOutcome.WellFormed outcome :=
    fun outcome member => rebuildable.wellFormed outcome
      ((List.perm_insertionSort _ _).mem_iff.mp member)
  have total : ∀ projected ∈ asked.insertionSort referenceInOrder, ∃ entry,
      resolveReference previous ordered projected = .ok entry ∧ Answer projected entry ∧
        projected ∈ asked := by
    intro projected member
    have isAsked := sorted.mem_iff.mp member
    obtain ⟨entry, answered, answer⟩ := resolveReference_ok rebuildable.prior orderedFormed
      (rebuildable.valid projected isAsked)
    exact ⟨entry, answered, answer, isAsked⟩
  obtain ⟨resolved, traversed, answers⟩ := mapM_total total
  have sameIds : (asked.insertionSort referenceInOrder).map
        (fun projected => projected.reference.referenceId) =
      resolved.map ResolvedReferenceProjection.referenceId :=
    map_eq_of_forall₂ (fun projected entry answer => answer.1.names.reference.symm) answers
  have distinct : (resolved.map ResolvedReferenceProjection.referenceId).Nodup := by
    rw [← sameIds, (sorted.map _).nodup_iff]
    exact rebuildable.distinct
  have ascending : (resolved.map ResolvedReferenceProjection.referenceId).Pairwise (· ≤ ·) := by
    have := referenceInOrder_total
    have := referenceInOrder_trans
    rw [← sameIds, List.pairwise_map]
    exact List.pairwise_insertionSort _ _
  have answered : ∀ entry ∈ resolved, ∃ projected ∈ asked, Answer projected entry := by
    intro entry member
    obtain ⟨projected, isOrdered, found⟩ := (Result.mapM_members traversed).2 entry member
    obtain ⟨other, foundToo, answer, isAsked⟩ := total projected isOrdered
    obtain rfl := Except.ok.inj (found.symm.trans foundToo)
    exact ⟨projected, isAsked, answer⟩
  let contexts := snapshots.insertionSort GraphContextSnapshot.inOrder
  let generation := projectionGeneration digest (asked.insertionSort referenceInOrder) ordered
    contexts resolved
  let engineering : EngineeringProjection :=
    { policyVersion := resolverPolicyVersion
      artifactGeneration := generation
      contexts := contexts
      references := resolved.map fun entry => { entry with artifactGeneration := generation }
      incompleteScans := incompleteScans ordered }
  have referenceIds : engineering.references.map ResolvedReferenceProjection.referenceId =
      resolved.map ResolvedReferenceProjection.referenceId := by
    simp [engineering]
  have sameContexts : contexts.Perm snapshots := List.perm_insertionSort _ _
  have references : ∀ entry ∈ engineering.references, engineering.validateReference entry = .ok () := by
    intro entry member
    obtain ⟨base, isResolved, rfl⟩ := List.mem_map.mp member
    obtain ⟨projected, isAsked, answer⟩ := answered base isResolved
    simp only [EngineeringProjection.validateReference, Result.seq_eq_ok, Result.require_eq_ok]
    refine ⟨answer.valid, rfl, ?_⟩
    rw [answer.names.context, answer.names.revision, (sameContexts.map _).mem_iff]
    exact rebuildable.captured projected isAsked
  have valid : engineering.validate = .ok () := by
    simp only [EngineeringProjection.validate, Result.seq_eq_ok, Result.require_eq_ok,
      Result.forM_eq_ok, Bool.not_eq_true']
    refine ⟨rfl, isBlank_append (by decide), built.validateContexts rfl, references, ?_, ?_⟩
    · rw [referenceIds]
      exact distinct
    · apply windowsAny_eq_false
      rw [← referenceIds, List.pairwise_map] at ascending
      exact ascending.imp fun before => by simpa using before
  refine ⟨engineering, ?_, valid⟩
  simp only [resolveAgainst]
  refine Result.seq_eq_ok.mpr ⟨Result.forM_eq_ok.mpr ?_, ?_⟩
  · exact fun context member => built.valid context (sameContexts.mem_iff.mp member)
  refine Result.bind_eq_ok.mpr ⟨ordered, mapped, Result.bind_eq_ok.mpr ⟨resolved, traversed, ?_⟩⟩
  refine Result.seq_eq_ok.mpr ⟨Result.require_eq_ok.mpr ?_, Result.seq_eq_ok.mpr ⟨valid, rfl⟩⟩
  rw [sameIds]
  exact distinct

end Rebuild

/-! ### The build and every rebuild over it -/

theorem projectedReferences_valid (events : List ReducerEvent) (hasher : ContentHasher) :
    (∀ projected ∈ projectedReferences (reduce events hasher), projected.validate = .ok ()) ∧
      ((projectedReferences (reduce events hasher)).map
        fun projected => projected.reference.referenceId).Nodup := by
  have resolvedFrom : ∀ referenceId projected,
      (reduce events hasher).engineeringReferences.get? referenceId = some projected →
      projected.reference.validate = .ok () ∧ projected.reference.referenceId = referenceId := by
    intro referenceId projected found
    obtain ⟨node, isCandidate, resolved⟩ := engineeringReferences_eq_some.mp found
    obtain ⟨wellFormed, spaceId, -, -, rfl⟩ := SharedContext.resolveReference_eq_ok.mp resolved
    exact ⟨wellFormed, (referenceCandidates_iff.mp isCandidate).1.symm⟩
  constructor
  · intro projected asked
    obtain ⟨projection, isProjected, rfl⟩ := List.mem_map.mp asked
    obtain ⟨referenceId, found⟩ := BTreeMap.mem_values.mp isProjected
    exact (resolvedFrom referenceId projection found).1
  · have distinct := BTreeMap.nodup_map_values fun referenceId projected found =>
      (resolvedFrom referenceId projected found).2
    simpa [projectedReferences, Function.comp_def] using distinct

/-- For every list of schema-valid events a build over the projected references
succeeds; it is closed, and what it offers for injection is safe.  Every rebuild
over its snapshots succeeds, also one with the projected references. -/
theorem graph_build_closed (events : List ReducerEvent) (hasher : ContentHasher)
    (schemaValid : ∀ event ∈ events, event.SchemaValid) :
    ∃ snapshots,
      buildGraphContextSnapshots (reduce events hasher)
          (projectedReferences (reduce events hasher)) = .ok snapshots ∧
      GraphBuild (reduce events hasher) (projectedReferences (reduce events hasher)) snapshots ∧
      (∀ outcomes : List RepositoryScanOutcome,
        (outcomes.map RepositoryScanOutcome.repositoryId).Nodup →
        (∀ outcome ∈ outcomes, RepositoryScanOutcome.WellFormed outcome) →
        Rebuildable snapshots none (projectedReferences (reduce events hasher)) outcomes) ∧
      ∀ digest previous asked outcomes, Rebuildable snapshots previous asked outcomes →
        ∃ engineering, resolveAgainst digest previous asked outcomes snapshots = .ok engineering ∧
          engineering.validate = .ok () := by
  obtain ⟨snapshots, returned, built⟩ :=
    buildGraphContextSnapshots_spec schemaValid (projectedReferences_anchored events hasher)
  obtain ⟨valid, distinct⟩ := projectedReferences_valid events hasher
  refine ⟨snapshots, returned, built, ?_, ?_⟩
  · intro outcomes repositories wellFormed
    refine ⟨by simp, valid, ?_, distinct, repositories, wellFormed⟩
    intro projected asked
    exact (built.covers _ _).mpr ⟨0, by omega, .referenced asked⟩
  · exact fun digest previous asked outcomes rebuildable =>
      built.resolveAgainst_ok digest rebuildable

/-! ### A small graph -/

def sampleReference : EngineeringReference where
  referenceId := ⟨1⟩
  repositoryId := ⟨"reports"⟩
  artifactKind := .file
  relation := .implements
  locator := .file ⟨"src/report.rs"⟩
  supports := "statement"
  limitations := []

/-- The accepted revision of a Context names a file. -/
def sampleAnchoring : List ReducerEvent :=
  sampleRepublication.take 4 ++
    [⟨⟨7⟩, .engineeringReferenceRecorded ⟨1⟩ ⟨11⟩ sampleReference⟩]

def sampleArtifact : SnapshotArtifact :=
  ⟨⟨⟨⟨"reports"⟩, "reports"⟩, ⟨⟨"reports"⟩, .file ⟨"src/report.rs"⟩⟩, "src/report.rs"⟩,
    [⟨⟨"src/report.rs"⟩, none, .rust, .trackedHead⟩]⟩

/-- A scan that found these artifacts. -/
def sampleOutcome (artifacts : List SnapshotArtifact) : RepositoryScanOutcome :=
  .available
    { repositoryId := ⟨"reports"⟩
      headTreeOid := "4b825dc642cb6eb9a060e54bf8d69288fbee4904"
      generation := "scan_1"
      plannedPaths := [⟨"src/report.rs"⟩]
      coverage := .complete
      artifacts := artifacts
      scannedFiles := 1
      scannedBytes := 12
      skippedFiles := [] }

def sampleAsked : ProjectedEngineeringReference :=
  ⟨⟨1⟩, ⟨11⟩, sampleReference⟩

/-- A reference to a revision that the graph does not have. -/
def sampleElsewhere : ProjectedEngineeringReference :=
  ⟨⟨1⟩, ⟨13⟩, sampleReference⟩

theorem sampleKeys {snapshots : List GraphContextSnapshot}
    (returned : buildGraphContextSnapshots (reduce sampleAnchoring sampleHasher)
      (projectedReferences (reduce sampleAnchoring sampleHasher)) = .ok snapshots) :
    snapshots.map GraphContextSnapshot.key = [(⟨1⟩, ⟨11⟩)] := by
  have keys : (buildGraphContextSnapshots (reduce sampleAnchoring sampleHasher)
      (projectedReferences (reduce sampleAnchoring sampleHasher))).toOption.map
        (List.map GraphContextSnapshot.key) = some [(⟨1⟩, ⟨11⟩)] := by
    decide +kernel
  rw [returned] at keys
  exact Option.some.inj keys

/-- The build over the accepted revision, and a rebuild with its reference. -/
theorem graph_build_closed_sample :
    ∃ snapshots,
      buildGraphContextSnapshots (reduce sampleAnchoring sampleHasher)
          (projectedReferences (reduce sampleAnchoring sampleHasher)) = .ok snapshots ∧
      snapshots.map GraphContextSnapshot.key = [(⟨1⟩, ⟨11⟩)] ∧
      ∀ digest, ∃ engineering,
        resolve digest (projectedReferences (reduce sampleAnchoring sampleHasher))
          [sampleOutcome [sampleArtifact]] snapshots = .ok engineering := by
  obtain ⟨snapshots, returned, -, rebuildable, resolves⟩ :=
    graph_build_closed sampleAnchoring sampleHasher (by decide)
  have wellFormed : ∀ outcome ∈ [sampleOutcome [sampleArtifact]],
      RepositoryScanOutcome.WellFormed outcome := by
    simp only [List.mem_singleton, forall_eq]
    exact ⟨by decide, by decide⟩
  refine ⟨snapshots, returned, sampleKeys returned, fun digest => ?_⟩
  obtain ⟨engineering, resolved, -⟩ :=
    resolves digest none _ _ (rebuildable [sampleOutcome [sampleArtifact]] (by simp) wellFormed)
  exact ⟨engineering, resolved⟩

theorem resolve_captured {digest : GenerationDigest} {asked : List ProjectedEngineeringReference}
    {outcomes : List RepositoryScanOutcome} {snapshots : List GraphContextSnapshot}
    {engineering : EngineeringProjection}
    (resolved : resolve digest asked outcomes snapshots = .ok engineering)
    {projected : ProjectedEngineeringReference} (isAsked : projected ∈ asked) :
    (projected.contextId, projected.revisionId) ∈ snapshots.map GraphContextSnapshot.key := by
  obtain ⟨base, answered, member⟩ := (resolveAgainst_answers resolved).answered projected isAsked
  have names := resolveReference_names answered
  simp only [resolve, resolveAgainst, Result.bind_eq_ok, Result.exists_unit, Result.require_eq_ok,
    Result.pure_eq_ok] at resolved
  obtain ⟨-, ordered, -, entries, -, -, valid, rfl⟩ := resolved
  simp only [EngineeringProjection.validate, Result.seq_eq_ok, Result.forM_eq_ok,
    EngineeringProjection.validateReference, Result.require_eq_ok] at valid
  obtain ⟨-, -, -, references, -⟩ := valid
  have captured := (references _ member).2.2
  rw [((List.perm_insertionSort _ _).map _).mem_iff] at captured
  rw [← names.context, ← names.revision]
  exact captured

/-- Repeated outcomes, repeated references, references to other revisions and
artifacts under one key are refused. -/
theorem malformed_rebuilds_refused :
    (∀ event ∈ sampleAnchoring, event.SchemaValid) ∧
    ∃ snapshots,
      buildGraphContextSnapshots (reduce sampleAnchoring sampleHasher)
          (projectedReferences (reduce sampleAnchoring sampleHasher)) = .ok snapshots ∧
      ∀ digest engineering,
        resolve digest [sampleAsked] [sampleOutcome [], sampleOutcome []] snapshots ≠
            .ok engineering ∧
          resolve digest [sampleAsked, sampleAsked] [sampleOutcome []] snapshots ≠
            .ok engineering ∧
          resolve digest [sampleElsewhere] [sampleOutcome []] snapshots ≠ .ok engineering ∧
          resolve digest [sampleAsked] [sampleOutcome [sampleArtifact, sampleArtifact]] snapshots ≠
            .ok engineering := by
  have schemaValid : ∀ event ∈ sampleAnchoring, event.SchemaValid := by decide
  obtain ⟨snapshots, returned, -⟩ := buildGraphContextSnapshots_spec schemaValid
    (projectedReferences_anchored sampleAnchoring sampleHasher)
  refine ⟨schemaValid, snapshots, returned, fun digest engineering => ⟨?_, ?_, ?_, ?_⟩⟩
  · intro resolved
    have distinct := (resolveAgainst_answers resolved).repositories
    simp at distinct
  · intro resolved
    have distinct := (resolveAgainst_answers resolved).distinct
    simp at distinct
  · intro resolved
    have captured := resolve_captured resolved (List.mem_singleton_self _)
    rw [sampleKeys returned] at captured
    revert captured
    decide
  · intro resolved
    obtain ⟨base, answered, -⟩ :=
      (resolveAgainst_answers resolved).answered sampleAsked (List.mem_singleton_self _)
    have refused : (resolveReference none [sampleOutcome [sampleArtifact, sampleArtifact]]
        sampleAsked).isOk = false := by
      decide
    rw [answered] at refused
    cases refused

end SharedContext.EngineeringGraph
