import SharedContext.EngineeringGraph.Resolution

/-!
# Answers over a bounded scan

A reference that resolves against the complete snapshot is reported missing
against a bounded one only if it names a directory that was half read.
-/

namespace SharedContext.EngineeringGraph

/-- A path strictly inside a directory. -/
def Beneath (directory : String) (path : RepoRelativePath) : Prop :=
  directory.toList ++ ['/'] <+: path.text.toList

/-- Something beneath a directory was inspected, but of its own sources, of
which it has some, none was parsed. -/
structure HalfRead (checks : Nat) (paths : List RepoRelativePath) (sources : List SourceFile)
    (directory : String) : Prop where
  inspected : ∃ path ∈ inspectedWithin (some checks) paths sources, Beneath directory path
  unparsed : ∀ source ∈ parsedWithin (some checks) paths sources,
    modulePath source.path.text ≠ some directory
  answered : ∃ source ∈ sources, modulePath source.path.text = some directory

/-- No reference that resolves against the complete snapshot is missing from
the bounded one. -/
def NeverLoses (digest : GenerationDigest) (bounded complete : RepositorySnapshot) : Prop :=
  ∀ references others contexts boundedProjection completeProjection,
    resolve digest references (.available bounded :: others) contexts = .ok boundedProjection →
    resolve digest references (.available complete :: others) contexts = .ok completeProjection →
    ∀ entry ∈ boundedProjection.references, entry.resolution.status = .missing →
      ∀ other ∈ completeProjection.references, other.referenceId = entry.referenceId →
        other.resolution.status ≠ .resolved ∧ other.resolution.status ≠ .ambiguous

/-! ### What a snapshot holds -/

section Holds

variable {repository : RepositoryIdentity} {rules : ScanRules}
  {paths inspected : List RepoRelativePath} {parsed : List SourceFile}
  {snapshot : RepositorySnapshot} {projected : ProjectedEngineeringReference}

theorem discoveryLocator_path {source : SourceFile} {discovery : Discovery}
    {locator : ArtifactLocator} (located : discoveryLocator rules source discovery = some locator) :
    locator.path = source.path ∧ isModuleLocator locator = false := by
  unfold discoveryLocator at located
  cases kind : discovery.kind <;> simp only [kind, reduceCtorEq, Option.some.injEq] at located <;>
    subst located <;> exact ⟨rfl, rfl⟩

theorem mem_locatorsOf {source : SourceFile} {locator : ArtifactLocator}
    (yielded : locator ∈ locatorsOf rules source) :
    if isModuleLocator locator then modulePath source.path.text = some locator.path.text
    else locator.path = source.path := by
  simp only [locatorsOf, List.cons_append, List.mem_cons, List.mem_append, List.mem_map,
    Option.mem_toList, List.mem_filterMap] at yielded
  rcases yielded with rfl | ⟨path, directory, rfl⟩ | ⟨discovery, -, located⟩
  · rfl
  · exact directory
  · obtain ⟨path, ordinary⟩ := discoveryLocator_path located
    rw [ordinary]
    exact path

theorem module_mem_locatorsOf {source : SourceFile} {path : RepoRelativePath} :
    .module path ∈ locatorsOf rules source ↔ modulePath source.path.text = some path.text := by
  constructor
  · exact fun yielded => mem_locatorsOf yielded
  · intro directory
    simp [locatorsOf, directory]

theorem winningCandidates_eq_singleton {locators : List ArtifactLocator}
    {artifacts : List SnapshotArtifact} (known : ArtifactsOf repository artifacts locators)
    (owned : projected.reference.repositoryId = repository.repositoryId)
    (kind : projected.reference.locator.kind = projected.reference.artifactKind)
    (held : projected.reference.locator ∈ locators) :
    ∃ found ∈ artifacts, found.artifact.artifactKey =
        ⟨repository.repositoryId, projected.reference.locator⟩ ∧
      winningCandidates projected.reference artifacts = [found] := by
  obtain ⟨found, listed, located⟩ := List.mem_map.mp ((known.located _).mpr held)
  obtain ⟨owner, keyed⟩ := known.owned found listed
  have key : found.artifact.artifactKey =
      ⟨repository.repositoryId, projected.reference.locator⟩ := by
    cases sameKey : found.artifact.artifactKey
    rw [sameKey] at keyed located
    simp only at keyed located
    rw [keyed, located]
  refine ⟨found, listed, key, ?_⟩
  let table : Table SnapshotArtifact fun found => found.artifact.artifactKey :=
    ⟨artifacts, known.distinct⟩
  unfold winningCandidates
  rw [List.filter_filter]
  have only : ∀ other ∈ artifacts, (other.artifact.artifactKey.locator =
        projected.reference.locator && (other.artifact.repository.repositoryId =
        projected.reference.repositoryId && other.artifact.artifactKey.kind =
        projected.reference.artifactKind)) =
      decide (other.artifact.artifactKey = found.artifact.artifactKey) := by
    intro other otherListed
    obtain ⟨otherOwner, otherKeyed⟩ := known.owned other otherListed
    rw [key]
    cases otherKey : other.artifact.artifactKey
    rw [otherKey] at otherKeyed
    simp only at otherKeyed
    subst otherKeyed
    by_cases same : other.artifact.artifactKey.locator = projected.reference.locator
    · rw [otherKey] at same
      simp only at same
      simp [same, otherOwner, owned, ArtifactKey.kind, kind]
    · rw [otherKey] at same
      simp only at same
      simp [same]
  rw [List.filter_congr fun other otherListed => by simpa using only other otherListed]
  have stored : found ∈ table := listed
  exact Table.filter_eq_singleton stored (by simp) fun other same => by simpa using same

theorem holdsArtifact_iff (evidences : Evidences repository rules paths inspected parsed snapshot)
    (owned : projected.reference.repositoryId = repository.repositoryId)
    (kind : projected.reference.locator.kind = projected.reference.artifactKind) :
    holdsArtifact projected snapshot ↔
      ∃ source ∈ parsed, projected.reference.locator ∈ locatorsOf rules source := by
  rw [← List.mem_flatMap]
  constructor
  · intro held
    obtain ⟨found, won⟩ := List.isEmpty_eq_false_iff_exists_mem.mp (by
      simpa [holdsArtifact] using held)
    simp only [winningCandidates, List.mem_filter, decide_eq_true_eq] at won
    rw [← evidences.artifacts.located, ← won.2]
    exact List.mem_map.mpr ⟨found, won.1.1, rfl⟩
  · intro yielded
    obtain ⟨found, -, -, won⟩ :=
      winningCandidates_eq_singleton evidences.artifacts owned kind yielded
    simp [holdsArtifact, won]

theorem snapshotCovers_iff (evidences : Evidences repository rules paths inspected parsed snapshot)
    (locator : ArtifactLocator) :
    snapshotCovers snapshot locator ↔ snapshot.coverage = .complete ∧ inspected = paths ∨
      snapshot.coverage ≠ .complete ∧
        if isModuleLocator locator then ∃ path ∈ inspected, Beneath locator.path.text path
        else locator.path ∈ inspected := by
  unfold snapshotCovers
  rcases evidences.coverage with ⟨complete, whole⟩ | ⟨unfinished, incomplete⟩
  · simp [complete, whole, ScanCoverage.coversDirectory, ScanCoverage.coversPath]
  · rw [incomplete]
    cases isModuleLocator locator with
    | true => simp [ScanCoverage.coversDirectory, Beneath]
    | false =>
        simp only [Bool.false_eq_true, if_false, ScanCoverage.coversPath, List.any_eq_true,
          decide_eq_true_eq, ne_eq, reduceCtorEq, not_false_eq_true, false_and, true_and, false_or]
        constructor
        · rintro ⟨path, listed, same⟩
          have equal : path = locator.path := by
            cases path
            cases sameLocator : locator.path
            simp only [sameLocator] at same
            rw [same]
          exact equal ▸ listed
        · exact fun listed => ⟨locator.path, listed, rfl⟩

end Holds

/-! ### Two scans of one plan -/

section TwoScans

variable {limits : RepositoryScannerLimits} {rules : ScanRules} {repository : RepositoryIdentity}
  {checkout : Checkout} {plan : RepositoryScanPlan} {checks : Option Nat}
  {sources : List SourceFile}

theorem parsed_of_inspected {paths : List RepoRelativePath} {source : SourceFile}
    (listed : source ∈ sources) (inspected : source.path ∈ inspectedWithin checks paths sources) :
    source ∈ parsedWithin checks paths sources := by
  simp only [inspectedWithin, List.mem_filter, decide_eq_true_eq] at inspected
  unfold parsedWithin
  rw [← List.take_append_drop ((checks.map fun left => left - paths.length).getD sources.length)
    sources] at listed
  rcases List.mem_append.mp listed with parsed | unparsed
  · exact parsed
  · exact absurd (List.mem_map_of_mem unparsed) inspected.2

theorem readSources_planned (read : readSources limits checkout plan.paths = .ok sources) :
    ∀ source ∈ sources, source.path ∈ plan.paths := by
  simp only [readSources, Result.bind_eq_ok, Result.pure_eq_ok] at read
  obtain ⟨state, folded, rfl⟩ := read
  obtain ⟨-, -, -, found, content, ordered⟩ :=
    readPaths_unbounded (ReadState.start none) folded
  intro source listed
  rw [content] at listed
  exact ordered.subset (List.mem_map_of_mem (by simpa [ReadState.start] using listed))

theorem scanBefore_evidences {snapshot : RepositorySnapshot}
    (read : readSources limits checkout plan.paths = .ok sources)
    (scanned : scanBefore limits rules repository (some checkout) plan checks =
      .ok (some (.available snapshot))) :
    Evidences repository rules plan.paths (inspectedWithin checks plan.paths sources)
      (parsedWithin checks plan.paths sources) snapshot := by
  obtain ⟨reached, prefixRead, evidences⟩ := scanBefore_evidence scanned
  obtain ⟨parsed, inspected⟩ := within_take read prefixRead
  rwa [parsed, inspected] at evidences

theorem scan_evidences {snapshot : RepositorySnapshot}
    (read : readSources limits checkout plan.paths = .ok sources)
    (scanned : scan limits rules repository (some checkout) plan = .ok (.available snapshot)) :
    Evidences repository rules plan.paths plan.paths sources snapshot := by
  simp only [scan, Result.bind_eq_ok] at scanned
  obtain ⟨outcome, unbounded, scanned⟩ := scanned
  cases outcome with
  | none => simp at scanned
  | some outcome =>
      simp only [Result.pure_eq_ok] at scanned
      subst scanned
      simpa [inspectedWithin, parsedWithin] using scanBefore_evidences read unbounded

theorem readSources_of_scan {snapshot : RepositorySnapshot}
    (scanned : scan limits rules repository (some checkout) plan = .ok (.available snapshot)) :
    ∃ sources, readSources limits checkout plan.paths = .ok sources := by
  simp only [scan, scanBefore, Result.bind_eq_ok, Result.exists_unit] at scanned
  obtain ⟨outcome, ⟨-, -, state, read, -⟩, -⟩ := scanned
  exact ⟨state.sources, by simp [readSources, read]⟩

/-- What resolves against the complete snapshot and is missing from a bounded
one names a directory that was half read. -/
theorem halfRead_of_lost {checks : Nat} {bounded complete : RepositorySnapshot}
    {projected : ProjectedEngineeringReference}
    (read : readSources limits checkout plan.paths = .ok sources)
    (boundedEvidence : Evidences repository rules plan.paths
      (inspectedWithin (some checks) plan.paths sources)
      (parsedWithin (some checks) plan.paths sources) bounded)
    (completeEvidence : Evidences repository rules plan.paths plan.paths sources complete)
    (owned : projected.reference.repositoryId = repository.repositoryId)
    (kind : projected.reference.locator.kind = projected.reference.artifactKind)
    (absent : ¬ holdsArtifact projected bounded)
    (covers : snapshotCovers bounded projected.reference.locator)
    (held : holdsArtifact projected complete) :
    HalfRead checks plan.paths sources projected.reference.locator.path.text := by
  rw [holdsArtifact_iff completeEvidence owned kind] at held
  rw [holdsArtifact_iff boundedEvidence owned kind] at absent
  obtain ⟨source, listed, yielded⟩ := held
  have unparsed : source.path ∉ inspectedWithin (some checks) plan.paths sources :=
    fun inspected => absent ⟨source, parsed_of_inspected listed inspected, yielded⟩
  rw [snapshotCovers_iff boundedEvidence] at covers
  have located := mem_locatorsOf yielded
  rcases covers with ⟨-, whole⟩ | ⟨-, covers⟩
  · rw [whole] at unparsed
    exact absurd (readSources_planned read source listed) unparsed
  · cases directory : isModuleLocator projected.reference.locator with
    | false =>
        simp only [directory, Bool.false_eq_true, if_false] at covers located
        rw [located] at covers
        exact absurd covers unparsed
    | true =>
        simp only [directory, if_true] at covers located
        refine ⟨covers, ?_, source, listed, located⟩
        intro other parsed inside
        refine absent ⟨other, parsed, ?_⟩
        cases named : projected.reference.locator with
        | module path =>
            rw [named] at inside
            exact module_mem_locatorsOf.mpr inside
        | _ => simp [named, isModuleLocator] at directory

end TwoScans

/-! ### A directory that is reported missing -/

section Directory

variable {repository : RepositoryIdentity} {digest : GenerationDigest}
  {snapshot : RepositorySnapshot} {projected : ProjectedEngineeringReference}

def soleContext : GraphContextSnapshot where
  spaceId := ⟨0⟩
  spaceTitle := "Scanning"
  contextId := ⟨0⟩
  revision :=
    { revisionId := ⟨0⟩
      parentRevisionIds := []
      kind := .discovery
      topicKey := none
      problemView := none
      statement := "the directory holds the parsers"
      rationale := "they were found there"
      applicability := ⟨[], [], []⟩
      assumptions := []
      recheckWhen := []
      hints := []
      relations := []
      evidence := [⟨⟨0⟩, .sourceSnapshot, "the directory", .object [("path", .string "src")],
        "its files are parsers", ["one commit"]⟩] }
  status := .accepted
  evidenceCompleteness := 1000
  safety := ⟨true, []⟩
  relations := []

theorem soleContext_valid : soleContext.validate = .ok () := by
  decide

def directoryReference (repositoryId : RepositoryId) (directory : String) :
    ProjectedEngineeringReference where
  contextId := soleContext.contextId
  revisionId := soleContext.revision.revisionId
  reference :=
    { referenceId := ⟨0⟩
      repositoryId := repositoryId
      artifactKind := .module
      relation := .dependsOn
      locator := .module ⟨directory⟩
      supports := "the directory of the parsers"
      limitations := [] }

theorem directoryReference_valid {repositoryId : RepositoryId} {directory : String}
    (valid : (ArtifactLocator.module ⟨directory⟩).validate = .ok ()) :
    (directoryReference repositoryId directory).validate = .ok () := by
  unfold ProjectedEngineeringReference.validate EngineeringReference.validate
  simp only [directoryReference, valid, Result.context]
  rfl

/-- The projection of one answer. -/
def soleProjection (digest : GenerationDigest) (snapshot : RepositorySnapshot)
    (projected : ProjectedEngineeringReference) (base : ResolvedReferenceProjection) :
    EngineeringProjection :=
  let generation :=
    projectionGeneration digest [projected] [.available snapshot] [soleContext] [base]
  { policyVersion := resolverPolicyVersion
    artifactGeneration := generation
    contexts := [soleContext]
    references := [{ base with artifactGeneration := generation }]
    incompleteScans := incompleteScans [.available snapshot] }

theorem soleProjection_valid {base : ResolvedReferenceProjection} (baseValid : base.validate = .ok ())
    (context : (base.contextId, base.revisionId) = soleContext.key) :
    (soleProjection digest snapshot projected base).validate = .ok () := by
  have generated (text : String) : isBlank ("eng_" ++ text) = false := by
    simp [isBlank, isWhiteSpace]
  have contexts : (soleProjection digest snapshot projected base).validateContexts = .ok () := by
    simp only [EngineeringProjection.validateContexts, Result.bind_eq_ok, Result.exists_unit,
      Result.require_eq_ok]
    refine ⟨Result.forM_eq_ok.mpr (by simp [soleProjection, soleContext_valid]), ?_, ?_, ?_⟩
    · simp [soleProjection]
    · rfl
    · rfl
  simp only [EngineeringProjection.validate, Result.bind_eq_ok, Result.exists_unit,
    Result.require_eq_ok]
  refine ⟨rfl, generated _, contexts, ?_, ?_, rfl⟩
  · refine Result.forM_eq_ok.mpr fun entry listed => ?_
    obtain rfl := List.mem_singleton.mp listed
    simp only [EngineeringProjection.validateReference, Result.bind_eq_ok, Result.exists_unit,
      Result.require_eq_ok]
    exact ⟨baseValid, rfl, by simp [soleProjection, context]⟩
  · simp [soleProjection]

theorem resolve_sole {base : ResolvedReferenceProjection}
    (valid : projected.validate = .ok ())
    (owned : snapshot.repositoryId = projected.reference.repositoryId)
    (resolved : resolveOne projected (some (.available snapshot)) = .ok base)
    (baseValid : base.validate = .ok ())
    (context : (base.contextId, base.revisionId) = soleContext.key) :
    resolve digest [projected] [.available snapshot] [soleContext] =
      .ok (soleProjection digest snapshot projected base) := by
  have found : outcomeOf [.available snapshot] projected.reference.repositoryId =
      some (.available snapshot) := by
    simp [outcomeOf, RepositoryScanOutcome.repositoryId, owned]
  have answered : resolveReference none [.available snapshot] projected = .ok base := by
    simp only [resolveReference, valid, found, resolved, Result.bind_eq_ok, Result.pure_eq_ok,
      Except.ok.injEq, exists_eq_left', carryForward_none]
    exact ⟨(), trivial, rfl⟩
  have mapped : snapshotMap [.available snapshot] = .ok [.available snapshot] := by
    simp [snapshotMap, Result.require, bind, Except.bind, pure, Except.pure]
  simp only [resolve, resolveAgainst, List.insertionSort_cons, List.insertionSort_nil,
    List.orderedInsert_nil, Result.bind_eq_ok,
    Result.exists_unit, Result.require_eq_ok, Result.pure_eq_ok]
  refine ⟨?_, _, mapped, [base], ?_, ?_, soleProjection_valid baseValid context, rfl⟩
  · exact Result.forM_eq_ok.mpr (by simp [soleContext_valid])
  · rw [List.mapM_cons, answered]
    rfl
  · simp

theorem missingExplanation_not_blank : isBlank missingExplanation = false := by
  decide

theorem resolvedExplanation_not_blank : isBlank resolvedExplanation = false := by
  decide

theorem resolveOne_missing (absent : ¬ holdsArtifact projected snapshot)
    (covers : snapshotCovers snapshot projected.reference.locator) :
    ∃ base, resolveOne projected (some (.available snapshot)) = .ok base ∧
      base.validate = .ok () ∧ base.resolution.status = .missing := by
  have none : winningCandidates projected.reference snapshot.artifacts = [] := by
    simpa [holdsArtifact] using absent
  unfold resolveOne
  simp only [none, covers, Bool.not_true, Bool.false_eq_true, if_false, projectionForStatus,
    Result.bind_eq_ok, Result.exists_unit, Result.pure_eq_ok]
  have resolution : ({ referenceId := projected.reference.referenceId
                       repositoryId := projected.reference.repositoryId
                       status := .missing
                       resolvedArtifact := Option.none
                       candidates := []
                       explanation := missingExplanation } : ArtifactResolution).validate =
      .ok () := by
    rw [ArtifactResolution.validate_eq_ok]
    exact ⟨missingExplanation_not_blank, by simp, by simp, by simp, rfl⟩
  refine ⟨_, ⟨resolution, rfl⟩, ?_, rfl⟩
  exact ResolvedReferenceProjection.validate_eq_ok.mpr
    ⟨resolution, rfl, rfl, rfl, by simp, by simp, rfl⟩

theorem matchExplanation_not_blank (basis : MatchBasis) (key : ArtifactKey) :
    isBlank (matchExplanation basis key) = false := by
  have start : isBlank (toString "matched ") = false := by decide
  unfold isBlank at start ⊢
  simp [matchExplanation, List.all_append, start]

theorem validate_key {found : EngineeringArtifact} (valid : found.validate = .ok ()) :
    found.artifactKey.validate = .ok () := by
  simp only [EngineeringArtifact.validate, Result.bind_eq_ok, Result.exists_unit] at valid
  exact valid.2.1

theorem resolveOne_directory {directory : String} {found : SnapshotArtifact}
    (projectedEq : projected = directoryReference repository.repositoryId directory)
    (won : winningCandidates projected.reference snapshot.artifacts = [found])
    (key : found.artifact.artifactKey = ⟨repository.repositoryId, .module ⟨directory⟩⟩)
    (valid : found.artifact.validate = .ok ()) :
    ∃ base, resolveOne projected (some (.available snapshot)) = .ok base ∧
      base.validate = .ok () ∧ base.resolution.status = .resolved := by
  have plain : candidateIsAmbiguous found = false := by
    simp [candidateIsAmbiguous, key, ArtifactKey.kind, ArtifactLocator.kind]
  have keyValid := validate_key valid
  subst projectedEq
  let association : ContextArtifactAssociation :=
    { contextId := soleContext.contextId
      revisionId := soleContext.revision.revisionId
      artifactKey := found.artifact.artifactKey
      kind := .uses
      sourceReferenceIds := [⟨0⟩]
      confidence := 1
      explanation := matchExplanation .exactModulePath found.artifact.artifactKey }
  have associationValid : association.validate = .ok () := by
    simp only [ContextArtifactAssociation.validate, Result.bind_eq_ok, Result.exists_unit,
      Result.require_eq_ok, requireText_eq_ok]
    refine ⟨keyValid, rfl, ?_, by simp [association], by simp [association],
      matchExplanation_not_blank _ _⟩
    exact (by decide : (0 : Rat) < 1 ∧ (1 : Rat) ≤ 1)
  have owner : found.artifact.artifactKey.repositoryId = repository.repositoryId := by rw [key]
  let resolution : ArtifactResolution :=
    { referenceId := ⟨0⟩
      repositoryId := repository.repositoryId
      status := .resolved
      resolvedArtifact := some found.artifact.artifactKey
      candidates := [found.artifact.artifactKey]
      explanation := resolvedExplanation }
  have resolutionValid : resolution.validate = .ok () := by
    rw [ArtifactResolution.validate_eq_ok]
    refine ⟨resolvedExplanation_not_blank, ?_, by simp [resolution], ?_,
      by simp [ArtifactResolution.validShape, resolution]⟩
    · simp [resolution, keyValid, owner]
    · simp [resolution, keyValid, owner]
  unfold resolveOne
  simp only [won, plain, Bool.not_false, if_true, projectionForResolved, projectionForStatus,
    Result.bind_eq_ok, Result.exists_unit, Result.pure_eq_ok]
  refine ⟨_, ⟨associationValid, _, ⟨resolutionValid, rfl⟩, rfl⟩, ?_, rfl⟩
  rw [ResolvedReferenceProjection.validate_eq_ok]
  refine ⟨resolutionValid, rfl, ?_, ?_, by simp [valid], by simp, ?_⟩
  · simp only [ResolvedReferenceProjection.validateAssociation, Result.bind_eq_ok,
      Result.exists_unit, Result.require_eq_ok]
    exact ⟨associationValid, trivial, trivial, trivial⟩
  · have confidence : (0 : Rat) ≤ 1 ∧ (1 : Rat) ≤ 1 := by decide
    simp [candidateEvidence, directoryReference, locatorMatchBasis, MatchBasis.confidence,
      confidence]
  · simp [ResolvedReferenceProjection.expectedKeys]

end Directory

/-! ### The answers of a bounded scan -/

section Answers

variable {limits : RepositoryScannerLimits} {rules : ScanRules} {repository : RepositoryIdentity}
  {checkout : Checkout} {plan : RepositoryScanPlan} {sources : List SourceFile} {checks : Nat}
  {bounded complete : RepositorySnapshot} {digest : GenerationDigest}

theorem validate_projected {projected : ProjectedEngineeringReference}
    (valid : projected.validate = .ok ()) :
    projected.reference.locator.kind = projected.reference.artifactKind := by
  unfold ProjectedEngineeringReference.validate EngineeringReference.validate at valid
  by_contra different
  simp only [ne_eq, different, not_false_eq_true, if_true] at valid
  split at valid
  · simp at valid
  · simp at valid

theorem resolveReference_first {references : List ProjectedEngineeringReference}
    {others : List RepositoryScanOutcome} {projection : EngineeringProjection}
    (answers : Answers none references (.available bounded :: others) projection)
    {projected : ProjectedEngineeringReference} {base : ResolvedReferenceProjection}
    (owned : bounded.repositoryId = projected.reference.repositoryId)
    (resolved : resolveReference none (.available bounded :: others) projected = .ok base) :
    resolveOne projected (some (.available bounded)) = .ok base := by
  have found : outcomeOf (.available bounded :: others) projected.reference.repositoryId =
      some (.available bounded) :=
    (outcomeOf_eq_some answers.repositories).mpr ⟨List.mem_cons_self, owned⟩
  obtain ⟨-, answer, answered, rfl⟩ := resolveReference_eq_ok.mp resolved
  rwa [carryForward_none, Option.getD_none, ← found]

theorem outcomeOf_rest {first : RepositoryScanOutcome} {others : List RepositoryScanOutcome}
    {repositoryId : RepositoryId} (different : first.repositoryId ≠ repositoryId) :
    outcomeOf (first :: others) repositoryId = outcomeOf others repositoryId := by
  simp [outcomeOf, different]

theorem lost_of_halfRead {directory : String}
    (boundedEvidence : Evidences repository rules plan.paths
      (inspectedWithin (some checks) plan.paths sources)
      (parsedWithin (some checks) plan.paths sources) bounded)
    (completeEvidence : Evidences repository rules plan.paths plan.paths sources complete)
    (halfRead : HalfRead checks plan.paths sources directory) :
    ¬ NeverLoses digest bounded complete := by
  let projected := directoryReference repository.repositoryId directory
  obtain ⟨source, listed, inside⟩ := halfRead.answered
  have yielded : projected.reference.locator ∈ sources.flatMap (locatorsOf rules) :=
    List.mem_flatMap.mpr ⟨source, listed, module_mem_locatorsOf.mpr inside⟩
  obtain ⟨found, stored, key, won⟩ :=
    winningCandidates_eq_singleton completeEvidence.artifacts rfl rfl yielded
  have foundValid := completeEvidence.artifacts.valid found stored
  have valid : projected.validate = .ok () := by
    refine directoryReference_valid ?_
    have keyValid := validate_key foundValid
    rw [key] at keyValid
    exact keyValid
  have absent : ¬ holdsArtifact projected bounded := by
    rw [holdsArtifact_iff boundedEvidence rfl rfl]
    rintro ⟨other, parsed, otherYielded⟩
    exact halfRead.unparsed other parsed (module_mem_locatorsOf.mp otherYielded)
  have covers : snapshotCovers bounded projected.reference.locator := by
    rw [snapshotCovers_iff boundedEvidence]
    rcases boundedEvidence.coverage with ⟨whole, inspected⟩ | ⟨unfinished, incomplete⟩
    · exact .inl ⟨whole, inspected⟩
    · exact .inr ⟨by simp [incomplete], halfRead.inspected⟩
  obtain ⟨missing, missingEq, missingValid, missingStatus⟩ := resolveOne_missing absent covers
  obtain ⟨answer, answerEq, answerValid, answerStatus⟩ :=
    resolveOne_directory rfl won key foundValid
  have missingNames := resolveOne_names missingEq
  have answerNames := resolveOne_names answerEq
  have boundedProjection : resolve digest _ _ _ = _ := resolve_sole valid boundedEvidence.owner
    missingEq missingValid (by rw [missingNames.context, missingNames.revision]; rfl)
  have completeProjection : resolve digest _ _ _ = _ := resolve_sole valid completeEvidence.owner
    answerEq answerValid (by rw [answerNames.context, answerNames.revision]; rfl)
  intro neverLoses
  have kept := neverLoses _ _ _ _ _ boundedProjection completeProjection _
    (List.mem_singleton.mpr rfl) missingStatus _ (List.mem_singleton.mpr rfl)
    (answerNames.reference.trans missingNames.reference.symm)
  exact kept.1 answerStatus

theorem neverLoses_iff
    (read : readSources limits checkout plan.paths = .ok sources)
    (boundedScan : scanBefore limits rules repository (some checkout) plan (some checks) =
      .ok (some (.available bounded)))
    (completeScan : scan limits rules repository (some checkout) plan = .ok (.available complete)) :
    NeverLoses digest bounded complete ↔
      ∀ directory, ¬ HalfRead checks plan.paths sources directory := by
  have boundedEvidence := scanBefore_evidences read boundedScan
  have completeEvidence := scan_evidences read completeScan
  constructor
  · intro neverLoses directory halfRead
    exact lost_of_halfRead boundedEvidence completeEvidence halfRead neverLoses
  · intro whole references others contexts boundedProjection completeProjection boundedResolved
      completeResolved entry listed missing other otherListed same
    have boundedAnswers := resolveAgainst_answers boundedResolved
    have completeAnswers := resolveAgainst_answers completeResolved
    obtain ⟨projected, asked, base, baseEq, rfl⟩ := boundedAnswers.asked entry listed
    obtain ⟨otherProjected, otherAsked, otherBase, otherEq, rfl⟩ :=
      completeAnswers.asked other otherListed
    obtain rfl : otherProjected = projected := by
      refine List.inj_on_of_nodup_map boundedAnswers.distinct otherAsked asked ?_
      exact (resolveReference_names otherEq).reference.symm.trans
        (same.trans (resolveReference_names baseEq).reference)
    by_cases owned : repository.repositoryId = otherProjected.reference.repositoryId
    · have kind := validate_projected (boundedAnswers.valid _ asked)
      obtain ⟨-, boundedStatus⟩ := resolveOne_status (resolveReference_first boundedAnswers
        (boundedEvidence.owner.trans owned) baseEq)
      obtain ⟨-, completeStatus⟩ := resolveOne_status (resolveReference_first completeAnswers
        (completeEvidence.owner.trans owned) otherEq)
      have missing : base.resolution.status = .missing := missing
      split_ifs at boundedStatus with held covers
      · simp [missing] at boundedStatus
      · have absent : ¬ holdsArtifact otherProjected complete := fun found =>
          whole _ (halfRead_of_lost read boundedEvidence completeEvidence owned.symm kind held
            covers found)
        rw [if_neg absent] at completeStatus
        split_ifs at completeStatus <;> simp [completeStatus]
      · simp [missing] at boundedStatus
    · have rest : outcomeOf (.available bounded :: others) otherProjected.reference.repositoryId =
          outcomeOf (.available complete :: others) otherProjected.reference.repositoryId := by
        rw [outcomeOf_rest, outcomeOf_rest]
        · exact fun equal => owned (completeEvidence.owner.symm.trans equal)
        · exact fun equal => owned (boundedEvidence.owner.symm.trans equal)
      unfold resolveReference at baseEq otherEq
      rw [rest, otherEq] at baseEq
      obtain rfl := Except.ok.inj baseEq
      have missing : otherBase.resolution.status = .missing := missing
      simp [missing]

end Answers

end SharedContext.EngineeringGraph
