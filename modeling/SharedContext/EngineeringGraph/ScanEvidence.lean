import SharedContext.EngineeringGraph.Scanner

/-!
# What a snapshot is evidence for

A bounded scan reads a prefix of its plan as an unbounded scan does, and its
artifacts are those of the sources that it had time to parse.
-/

namespace SharedContext.EngineeringGraph

/-! ### Reading a prefix -/

section Reading

variable {limits : RepositoryScannerLimits} {checkout : Checkout}

def ReadState.within (state : ReadState) (checks : Option Nat) : ReadState :=
  { state with checks := checks }

/-- The same reading with paths that were not reached. -/
def ReadState.stop (state : ReadState) (checks : Option Nat) (paths : List RepoRelativePath) :
    ReadState :=
  { state with checks := checks, unfinished := state.unfinished ++ paths }

theorem inspectPath_within (state : ReadState) (checks : Option Nat) (path : RepoRelativePath) :
    inspectPath limits checkout (state.within checks) path =
      inspectPath limits checkout state path :=
  rfl

theorem readPath_unbounded (state : ReadState) (path : RepoRelativePath) :
    readPath limits checkout (state.within none) path =
      (inspectPath limits checkout state path).map fun found =>
        (state.add path found).within none := by
  unfold readPath
  rw [if_neg (by simp [ReadState.within]), inspectPath_within]
  cases inspectPath limits checkout state path with
  | error error => rfl
  | ok found => cases found <;> rfl

theorem readPath_bounded (state : ReadState) (path : RepoRelativePath) (checks : Nat) :
    readPath limits checkout (state.within (some (checks + 1))) path =
      (inspectPath limits checkout state path).map fun found =>
        (state.add path found).within (some checks) := by
  unfold readPath
  rw [if_neg (by simp [ReadState.within]), inspectPath_within]
  cases inspectPath limits checkout state path with
  | error error => rfl
  | ok found => cases found <;> rfl

theorem inspectPath_source {state : ReadState} {path : RepoRelativePath} {source : SourceFile}
    (inspected : inspectPath limits checkout state path = .ok (.source source)) :
    source.path = path := by
  revert inspected
  fun_cases inspectPath limits checkout state path with
  | case9 =>
      intro inspected
      simp only [Result.bind_eq_ok] at inspected
      obtain ⟨staysInside, -, inspected⟩ := inspected
      split_ifs at inspected
      · simp at inspected
      · simp at inspected
      · simp at inspected
      · obtain ⟨content, -, inspected⟩ := Result.bind_eq_ok.mp inspected
        cases content with
        | binary => simp at inspected
        | text text =>
            simp only [Result.pure_eq_ok, Inspection.source.injEq] at inspected
            rw [← inspected]
  | _ => simp

theorem readPaths_spent (state : ReadState) (paths : List RepoRelativePath) :
    paths.foldlM (readPath limits checkout) (state.within (some 0)) =
      .ok (state.stop (some 0) paths) := by
  induction paths generalizing state with
  | nil => simp [ReadState.within, ReadState.stop, pure, Except.pure]
  | cons path paths induction =>
      have stopped : readPath limits checkout (state.within (some 0)) path =
          .ok ((state.stop (some 0) [path]).within (some 0)) := rfl
      rw [List.foldlM_cons, stopped]
      change paths.foldlM (readPath limits checkout)
        ((state.stop (some 0) [path]).within (some 0)) = _
      rw [induction]
      simp [ReadState.stop]

theorem readPaths_bounded (state : ReadState) (paths : List RepoRelativePath) (checks : Nat) :
    paths.foldlM (readPath limits checkout) (state.within (some checks)) =
      ((paths.take checks).foldlM (readPath limits checkout) (state.within none)).map
        fun final => final.stop (some (checks - paths.length)) (paths.drop checks) := by
  induction paths generalizing state checks with
  | nil => simp [ReadState.within, ReadState.stop, pure, Except.pure, Except.map]
  | cons path paths induction =>
      cases checks with
      | zero =>
          rw [readPaths_spent]
          simp [ReadState.within, ReadState.stop, pure, Except.pure, Except.map]
      | succ checks =>
          rw [List.take_succ_cons, List.foldlM_cons, List.foldlM_cons, readPath_bounded,
            readPath_unbounded]
          cases inspectPath limits checkout state path with
          | error error => rfl
          | ok found =>
              change paths.foldlM (readPath limits checkout)
                  ((state.add path found).within (some checks)) = _
              rw [induction]
              simp only [List.length_cons, Nat.add_sub_add_right, List.drop_succ_cons]
              rfl

/-- What an unbounded reading adds: every path is covered, and the sources are
among them, in order. -/
theorem readPaths_unbounded {paths : List RepoRelativePath} (state : ReadState) {final : ReadState}
    (read : paths.foldlM (readPath limits checkout) (state.within none) = .ok final) :
    final.checks = none ∧ final.covered = state.covered ++ paths ∧
      final.unfinished = state.unfinished ∧
      ∃ sources, final.sources = state.sources ++ sources ∧
        (sources.map SourceFile.path).Sublist paths := by
  induction paths generalizing state with
  | nil =>
      simp only [List.foldlM_nil, Result.pure_eq_ok] at read
      subst read
      exact ⟨rfl, by simp [ReadState.within], rfl, [], by simp [ReadState.within], by simp⟩
  | cons path paths induction =>
      rw [List.foldlM_cons, readPath_unbounded, Result.bind_eq_ok] at read
      obtain ⟨next, inspected, read⟩ := read
      obtain ⟨found, found_eq, rfl⟩ := Result.map_eq_ok.mp inspected
      obtain ⟨unlimited, covered, unfinished, sources, sources_eq, ordered⟩ := induction _ read
      refine ⟨unlimited, ?_, ?_, ?_⟩
      · rw [covered]
        cases found <;> simp [ReadState.add]
      · rw [unfinished]
        cases found <;> rfl
      · cases found with
        | skipped reason =>
            exact ⟨sources, sources_eq, ordered.cons path⟩
        | source source =>
            refine ⟨source :: sources, by simpa [ReadState.add, ReadState.within] using sources_eq, ?_⟩
            rw [List.map_cons, inspectPath_source found_eq]
            exact ordered.cons_cons path

end Reading

/-! ### Parsing -/

section Parsing

variable {rules : ScanRules} {repository : RepositoryIdentity}

def locatorsOf (rules : ScanRules) (source : SourceFile) : List ArtifactLocator :=
  .file source.path :: (modulePath source.path.text).toList.map (fun path => .module ⟨path⟩) ++
    (rules.extract source.language source.path source.text).filterMap (discoveryLocator rules source)

/-- Artifacts of one repository, each under its own key. -/
structure ArtifactsOf (repository : RepositoryIdentity) (artifacts : List SnapshotArtifact)
    (locators : List ArtifactLocator) : Prop where
  owned : ∀ found ∈ artifacts, found.artifact.repository = repository ∧
    found.artifact.artifactKey.repositoryId = repository.repositoryId
  valid : ∀ found ∈ artifacts, found.artifact.validate = .ok ()
  distinct : (artifacts.map fun found => found.artifact.artifactKey).Nodup
  located : ∀ locator, locator ∈ artifacts.map (fun found => found.artifact.artifactKey.locator) ↔
    locator ∈ locators

theorem artifact_eq_ok {locator : ArtifactLocator} {name : String} {entry : EngineeringArtifact}
    (built : artifact repository locator name = .ok entry) :
    entry.repository = repository ∧ entry.artifactKey = ⟨repository.repositoryId, locator⟩ ∧
      entry.validate = .ok () := by
  simp only [artifact, Result.seq_eq_ok, Result.pure_eq_ok] at built
  obtain ⟨-, valid, rfl⟩ := built
  exact ⟨rfl, rfl, valid⟩

theorem observe_artifact (found : SnapshotArtifact) (seen : ArtifactObservation) :
    (found.observe seen).artifact = found.artifact := by
  unfold SnapshotArtifact.observe
  split <;> rfl

theorem insertArtifact_artifacts (artifacts : List SnapshotArtifact) (entry : EngineeringArtifact)
    (seen : ArtifactObservation) :
    (insertArtifact artifacts entry seen).map SnapshotArtifact.artifact =
      if entry.artifactKey ∈ artifacts.map (fun found => found.artifact.artifactKey) then
        artifacts.map SnapshotArtifact.artifact
      else artifacts.map SnapshotArtifact.artifact ++ [entry] := by
  induction artifacts with
  | nil => simp [insertArtifact]
  | cons found artifacts induction =>
      unfold insertArtifact
      by_cases same : found.artifact.artifactKey = entry.artifactKey
      · simp [same, observe_artifact]
      · have different : entry.artifactKey ≠ found.artifact.artifactKey := Ne.symm same
        rw [if_neg same, List.map_cons, induction]
        by_cases known : entry.artifactKey ∈ artifacts.map (fun found => found.artifact.artifactKey)
        · simp [known]
        · simp [known, different]

theorem ArtifactsOf.insert {artifacts : List SnapshotArtifact} {locators : List ArtifactLocator}
    (known : ArtifactsOf repository artifacts locators) {locator : ArtifactLocator} {name : String}
    {entry : EngineeringArtifact} (built : artifact repository locator name = .ok entry)
    (seen : ArtifactObservation) :
    ArtifactsOf repository (insertArtifact artifacts entry seen) (locators ++ [locator]) := by
  obtain ⟨owner, key, valid⟩ := artifact_eq_ok built
  have content := insertArtifact_artifacts artifacts entry seen
  have members : ∀ found ∈ insertArtifact artifacts entry seen,
      (∃ prior ∈ artifacts, prior.artifact = found.artifact) ∨ found.artifact = entry := by
    intro found membership
    have listed := List.mem_map_of_mem (f := SnapshotArtifact.artifact) membership
    rw [content] at listed
    split_ifs at listed
    · exact .inl (List.mem_map.mp listed)
    · rcases List.mem_append.mp listed with prior | added
      · exact .inl (List.mem_map.mp prior)
      · exact .inr (List.mem_singleton.mp added)
  have keys : (insertArtifact artifacts entry seen).map (fun found => found.artifact.artifactKey) =
      if entry.artifactKey ∈ artifacts.map (fun found => found.artifact.artifactKey) then
        artifacts.map (fun found => found.artifact.artifactKey)
      else artifacts.map (fun found => found.artifact.artifactKey) ++ [entry.artifactKey] := by
    have mapped := congrArg (List.map EngineeringArtifact.artifactKey) content
    rw [List.map_map] at mapped
    split_ifs at mapped ⊢ <;> simpa [Function.comp_def] using mapped
  refine ⟨?_, ?_, ?_, ?_⟩
  · intro found membership
    rcases members found membership with ⟨prior, listed, same⟩ | same
    · rw [← same]
      exact known.owned prior listed
    · rw [same, owner, key]
      exact ⟨rfl, rfl⟩
  · intro found membership
    rcases members found membership with ⟨prior, listed, same⟩ | same
    · rw [← same]
      exact known.valid prior listed
    · rw [same]
      exact valid
  · rw [keys]
    split_ifs with listed
    · exact known.distinct
    · exact List.nodup_append.mpr ⟨known.distinct, by simp, by
        intro first firstMem second secondMem same
        rw [List.mem_singleton.mp secondMem] at same
        exact listed (same ▸ firstMem)⟩
  · intro other
    have located : (insertArtifact artifacts entry seen).map
          (fun found => found.artifact.artifactKey.locator) =
        ((insertArtifact artifacts entry seen).map fun found => found.artifact.artifactKey).map
          ArtifactKey.locator := by simp
    have before : artifacts.map (fun found => found.artifact.artifactKey.locator) =
        (artifacts.map fun found => found.artifact.artifactKey).map ArtifactKey.locator := by simp
    rw [located, keys, List.mem_append, List.mem_singleton, ← known.located, before]
    split_ifs with listed
    · constructor
      · exact .inl
      · rintro (prior | rfl)
        · exact prior
        · rw [key] at listed
          exact List.mem_map.mpr ⟨_, listed, rfl⟩
    · rw [List.map_append, List.mem_append, List.map_singleton, List.mem_singleton, key]

theorem ArtifactsOf.nil : ArtifactsOf repository [] [] where
  owned := by simp
  valid := by simp
  distinct := by simp
  located := by simp

theorem scanDiscovery_artifacts {source : SourceFile} {discovery : Discovery}
    {artifacts added : List SnapshotArtifact} {locators : List ArtifactLocator}
    (known : ArtifactsOf repository artifacts locators)
    (scanned : scanDiscovery rules repository source artifacts discovery = .ok added) :
    ArtifactsOf repository added (locators ++ (discoveryLocator rules source discovery).toList) := by
  unfold scanDiscovery at scanned
  cases located : discoveryLocator rules source discovery with
  | none =>
      simp only [located, Except.ok.injEq] at scanned
      simpa [scanned] using known
  | some locator =>
      simp only [located, Result.bind_eq_ok, Result.pure_eq_ok] at scanned
      obtain ⟨entry, built, rfl⟩ := scanned
      exact known.insert built _

theorem scanDiscoveries_artifacts {source : SourceFile} {discoveries : List Discovery}
    {artifacts added : List SnapshotArtifact} {locators : List ArtifactLocator}
    (known : ArtifactsOf repository artifacts locators)
    (scanned : discoveries.foldlM (scanDiscovery rules repository source) artifacts = .ok added) :
    ArtifactsOf repository added
      (locators ++ discoveries.filterMap (discoveryLocator rules source)) := by
  induction discoveries generalizing artifacts locators with
  | nil =>
      simp only [List.foldlM_nil, Result.pure_eq_ok] at scanned
      simpa [scanned] using known
  | cons discovery discoveries induction =>
      rw [List.foldlM_cons, Result.bind_eq_ok] at scanned
      obtain ⟨next, first, rest⟩ := scanned
      have step := induction (scanDiscovery_artifacts known first) rest
      cases located : discoveryLocator rules source discovery with
      | none => simpa [located] using step
      | some locator => simpa [located] using step

theorem scanModule_artifacts {source : SourceFile} {artifacts added : List SnapshotArtifact}
    {locators : List ArtifactLocator} (known : ArtifactsOf repository artifacts locators)
    (scanned : scanModule repository source artifacts = .ok added) :
    ArtifactsOf repository added
      (locators ++ (modulePath source.path.text).toList.map fun path => .module ⟨path⟩) := by
  unfold scanModule at scanned
  cases directory : modulePath source.path.text with
  | none =>
      simp only [directory, Except.ok.injEq] at scanned
      simpa [scanned] using known
  | some path =>
      simp only [directory, Result.bind_eq_ok, Result.pure_eq_ok] at scanned
      obtain ⟨entry, built, rfl⟩ := scanned
      exact known.insert built _

theorem scanSource_artifacts {source : SourceFile} {artifacts added : List SnapshotArtifact}
    {locators : List ArtifactLocator} (known : ArtifactsOf repository artifacts locators)
    (scanned : scanSource rules repository artifacts source = .ok added) :
    ArtifactsOf repository added (locators ++ locatorsOf rules source) := by
  simp only [scanSource, Result.bind_eq_ok] at scanned
  obtain ⟨entry, built, withModule, module, rest⟩ := scanned
  have result := scanDiscoveries_artifacts (scanModule_artifacts (known.insert built _) module) rest
  simpa [locatorsOf] using result

theorem parseSources_artifacts {sources : List SourceFile} {checks : Option Nat}
    {artifacts added : List SnapshotArtifact} {unparsed : List SourceFile}
    {locators : List ArtifactLocator} (known : ArtifactsOf repository artifacts locators)
    (parsed : parseSources rules repository artifacts checks sources = .ok (added, unparsed)) :
    unparsed = sources.drop (checks.getD sources.length) ∧
      ArtifactsOf repository added (locators ++
        (sources.take (checks.getD sources.length)).flatMap (locatorsOf rules)) := by
  induction sources generalizing artifacts checks locators with
  | nil =>
      simp only [parseSources, Except.ok.injEq, Prod.mk.injEq] at parsed
      obtain ⟨rfl, rfl⟩ := parsed
      simpa using known
  | cons source sources induction =>
      unfold parseSources at parsed
      split_ifs at parsed with spent
      · simp only [Except.ok.injEq, Prod.mk.injEq] at parsed
        obtain ⟨rfl, rfl⟩ := parsed
        simpa [spent] using known
      · rw [Result.bind_eq_ok] at parsed
        obtain ⟨next, scanned, rest⟩ := parsed
        have step := induction (scanSource_artifacts known scanned) rest
        cases checks with
        | none => simpa using step
        | some checks =>
            obtain ⟨left, rfl⟩ : ∃ left, checks = left + 1 :=
              Nat.exists_eq_succ_of_ne_zero (by simpa using spent)
            simpa using step

end Parsing

/-! ### The evidence of a snapshot -/

section Evidence

variable {limits : RepositoryScannerLimits} {rules : ScanRules} {repository : RepositoryIdentity}
  {checkout : Checkout} {plan : RepositoryScanPlan} {checks : Option Nat}

/-- The sources among some paths, read without a budget. -/
def readSources (limits : RepositoryScannerLimits) (checkout : Checkout)
    (paths : List RepoRelativePath) : Result (List SourceFile) := do
  let state ← paths.foldlM (readPath limits checkout) (ReadState.start none)
  pure state.sources

/-- The sources for which a budget leaves checks, after one for each path. -/
def parsedWithin (checks : Option Nat) (paths : List RepoRelativePath)
    (sources : List SourceFile) : List SourceFile :=
  sources.take ((checks.map fun left => left - paths.length).getD sources.length)

/-- The paths that a budget reaches, but for sources that are never parsed. -/
def inspectedWithin (checks : Option Nat) (paths : List RepoRelativePath)
    (sources : List SourceFile) : List RepoRelativePath :=
  (paths.take (checks.getD paths.length)).filter fun path => decide (path ∉
    (sources.drop ((checks.map fun left => left - paths.length).getD sources.length)).map
      SourceFile.path)

/-- A snapshot of the sources that were parsed, which says what was inspected. -/
structure Evidences (repository : RepositoryIdentity) (rules : ScanRules)
    (paths inspected : List RepoRelativePath) (parsed : List SourceFile)
    (snapshot : RepositorySnapshot) : Prop where
  owner : snapshot.repositoryId = repository.repositoryId
  planned : snapshot.plannedPaths = paths
  artifacts : ArtifactsOf repository snapshot.artifacts (parsed.flatMap (locatorsOf rules))
  coverage : snapshot.coverage = .complete ∧ inspected = paths ∨
    ∃ unfinished, snapshot.coverage = .incomplete inspected unfinished

theorem byPath_sources {sources : List SourceFile}
    (ordered : (sources.map SourceFile.path).Sublist plan.paths) :
    sources.Pairwise fun first second => byPath first.path second.path := by
  have texts := plan.inOrder.sublist (ordered.map RepoRelativePath.text)
  rw [List.pairwise_map, List.pairwise_map] at texts
  refine texts.imp fun {first second} before => ?_
  have notAfter : ¬ second.path.text ≤ first.path.text := fun after => after before
  exact Std.le_of_not_ge notAfter

theorem readPlan_bounded {state : ReadState}
    (read : plan.paths.foldlM (readPath limits checkout) (ReadState.start checks) = .ok state) :
    ∃ sources,
      readSources limits checkout (plan.paths.take (checks.getD plan.paths.length)) = .ok sources ∧
      state.sources = sources ∧
      state.checks = checks.map (fun left => left - plan.paths.length) ∧
      state.covered = plan.paths.take (checks.getD plan.paths.length) ∧
      state.unfinished = plan.paths.drop (checks.getD plan.paths.length) ∧
      (sources.map SourceFile.path).Sublist plan.paths := by
  cases checks with
  | none =>
      have facts := readPaths_unbounded (ReadState.start none) read
      obtain ⟨unlimited, covered, unfinished, sources, content, ordered⟩ := facts
      refine ⟨state.sources, ?_, rfl, ?_, ?_, ?_, ?_⟩
      · simp [readSources, read]
      · simpa using unlimited
      · simpa [ReadState.start] using covered
      · simpa [ReadState.start] using unfinished
      · simpa [content, ReadState.start] using ordered
  | some checks =>
      have bounded : plan.paths.foldlM (readPath limits checkout) _ = _ :=
        readPaths_bounded (ReadState.start none) plan.paths checks
      have whole : (ReadState.start none).within (some checks) = ReadState.start (some checks) := rfl
      rw [whole, read] at bounded
      obtain ⟨final, prefixRead, stopped⟩ := Result.map_eq_ok.mp bounded.symm
      have facts := readPaths_unbounded (ReadState.start none) prefixRead
      obtain ⟨unlimited, covered, unfinished, sources, content, ordered⟩ := facts
      have prefixStart : (ReadState.start none).within none = ReadState.start none := rfl
      rw [prefixStart] at prefixRead
      refine ⟨final.sources, ?_, ?_, ?_, ?_, ?_, ?_⟩
      · simp [readSources, prefixRead]
      · rw [← stopped]
        rfl
      · rw [← stopped]
        rfl
      · rw [← stopped]
        simpa [ReadState.stop, ReadState.start] using covered
      · rw [← stopped]
        simp [ReadState.stop, unfinished, ReadState.start]
      · rw [content]
        simpa [ReadState.start] using ordered.trans (List.take_sublist _ _)

theorem scanBefore_evidence {snapshot : RepositorySnapshot}
    (scanned : scanBefore limits rules repository (some checkout) plan checks =
      .ok (some (.available snapshot))) :
    ∃ sources,
      readSources limits checkout (plan.paths.take (checks.getD plan.paths.length)) = .ok sources ∧
      Evidences repository rules plan.paths (inspectedWithin checks plan.paths sources)
        (parsedWithin checks plan.paths sources) snapshot := by
  simp only [scanBefore, Result.bind_eq_ok, Result.exists_unit, Result.pure_eq_ok,
    Option.map_eq_some_iff, RepositoryScanOutcome.available.injEq] at scanned
  obtain ⟨-, -, state, read, result, built, snapshot', rfl, rfl⟩ := scanned
  obtain ⟨sources, prefixRead, content, left, covered, unfinished, ordered⟩ := readPlan_bounded read
  refine ⟨sources, prefixRead, ?_⟩
  simp only [snapshotOf, content, left, (byPath_sources ordered).insertionSort_eq,
    Result.bind_eq_ok, Prod.exists] at built
  obtain ⟨artifacts, unparsed, parsed, built⟩ := built
  obtain ⟨rest, known⟩ := parseSources_artifacts ArtifactsOf.nil parsed
  have inspected : state.covered.filter
        (fun entry => decide (entry ∉ unparsed.map SourceFile.path)) =
      inspectedWithin checks plan.paths sources := by
    rw [covered, rest]
    rfl
  rw [inspected] at built
  split at built
  · simp at built
  · simp only [Result.pure_eq_ok, Option.some.injEq] at built
    subst built
    refine ⟨rfl, rfl, known, ?_⟩
    by_cases allParsed : unparsed = []
    · by_cases allReached : state.unfinished = []
      · refine .inl ⟨by simp [allParsed, allReached], ?_⟩
        have whole : plan.paths.take (checks.getD plan.paths.length) = plan.paths :=
          List.take_of_length_le (List.drop_eq_nil_iff.mp (unfinished ▸ allReached))
        rw [← inspected, covered, whole, allParsed]
        simp
      · exact .inr ⟨state.unfinished, by simp [allParsed, allReached]⟩
    · have some : (state.unfinished ++ unparsed.map SourceFile.path).insertionSort byPath ≠ [] := by
        intro none
        have lengths := congrArg List.length none
        simp only [List.length_insertionSort, List.length_append, List.length_map, List.length_nil] at lengths
        exact allParsed (List.eq_nil_of_length_eq_zero (by omega))
      exact .inr ⟨_, by rw [if_neg allParsed, if_neg some]⟩

theorem readSources_take {paths : List RepoRelativePath} {full : List SourceFile} (count : Nat)
    (read : readSources limits checkout paths = .ok full) :
    ∃ sources later, readSources limits checkout (paths.take count) = .ok sources ∧
      full = sources ++ later ∧ (later.map SourceFile.path).Sublist (paths.drop count) := by
  simp only [readSources, Result.bind_eq_ok, Result.pure_eq_ok] at read
  obtain ⟨final, folded, rfl⟩ := read
  rw [← List.take_append_drop count paths, List.foldlM_append, Result.bind_eq_ok] at folded
  obtain ⟨middle, first, rest⟩ := folded
  have unlimited := (readPaths_unbounded (ReadState.start none) first).1
  have same : middle.within none = middle := by
    rw [← unlimited]
    rfl
  rw [← same] at rest
  obtain ⟨-, -, -, later, content, ordered⟩ := readPaths_unbounded middle rest
  refine ⟨middle.sources, later, ?_, content, ordered⟩
  simp [readSources, first]

theorem within_take {full sources : List SourceFile}
    (read : readSources limits checkout plan.paths = .ok full)
    (prefixRead : readSources limits checkout
      (plan.paths.take (checks.getD plan.paths.length)) = .ok sources) :
    parsedWithin checks plan.paths sources = parsedWithin checks plan.paths full ∧
      inspectedWithin checks plan.paths sources = inspectedWithin checks plan.paths full := by
  obtain ⟨sources', later, prefixRead', rfl, ordered⟩ :=
    readSources_take (checks.getD plan.paths.length) read
  obtain rfl : sources' = sources := by
    rw [prefixRead'] at prefixRead
    exact Except.ok.inj prefixRead
  by_cases whole : plan.paths.length ≤ checks.getD plan.paths.length
  · rw [List.drop_eq_nil_of_le whole] at ordered
    have none : later = [] := List.map_eq_nil_iff.mp (List.sublist_nil.mp ordered)
    simp [none]
  · cases checks with
    | none => simp at whole
    | some checks =>
        have spent : checks - plan.paths.length = 0 := by
          simp only [Option.getD_some] at whole
          omega
        refine ⟨by simp [parsedWithin, spent], ?_⟩
        unfold inspectedWithin
        simp only [Option.map_some, Option.getD_some, spent, List.drop_zero, List.map_append,
          List.mem_append, not_or, Bool.decide_and] at ordered ⊢
        refine List.filter_congr fun path reached => ?_
        have notLater : path ∉ later.map SourceFile.path := by
          intro unread
          have distinct := plan.nodup
          rw [← List.take_append_drop checks plan.paths] at distinct
          exact (List.nodup_append.mp distinct).2.2 path reached path (ordered.subset unread) rfl
        simp [notLater]

end Evidence

end SharedContext.EngineeringGraph
