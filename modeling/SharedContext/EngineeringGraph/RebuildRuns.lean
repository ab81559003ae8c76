import SharedContext.EngineeringGraph.BoundedScans

/-!
# Rebuild after rebuild

Each rebuild scans the paths that its references name, some of them within a
budget, and resolves over the previous projection.  A reference keeps the
answer of the last snapshot that read its path.
-/

namespace SharedContext.EngineeringGraph

/-- What one rebuild resolves. -/
structure Rebuild where
  references : List ProjectedEngineeringReference
  outcomes : List RepositoryScanOutcome
  contexts : List GraphContextSnapshot

/-- The snapshots of a rebuild are scans of the paths that its references name. -/
def Rebuild.Scanned (limits : RepositoryScannerLimits) (rules : ScanRules) (rebuild : Rebuild) :
    Prop :=
  ∀ snapshot, .available snapshot ∈ rebuild.outcomes → ∃ repository checkout plan checks,
    scanBefore limits rules repository (some checkout) plan checks =
        .ok (some (.available snapshot)) ∧
      ∀ path, path ∈ plan.paths ↔ ∃ projected ∈ rebuild.references,
        projected.reference.repositoryId = snapshot.repositoryId ∧
          projected.reference.locator.path = path

/-- The projection after some rebuilds, the newest first. -/
inductive RebuildRun (limits : RepositoryScannerLimits) (rules : ScanRules)
    (digest : GenerationDigest) : List Rebuild → EngineeringProjection → Prop
  | first {rebuild : Rebuild} {projection : EngineeringProjection}
      (scanned : rebuild.Scanned limits rules)
      (resolved : resolve digest rebuild.references rebuild.outcomes rebuild.contexts =
        .ok projection) :
      RebuildRun limits rules digest [rebuild] projection
  | next {rebuild : Rebuild} {rebuilds : List Rebuild}
      {previous projection : EngineeringProjection}
      (run : RebuildRun limits rules digest rebuilds previous)
      (scanned : rebuild.Scanned limits rules)
      (resolved : resolveIncremental digest previous rebuild.references rebuild.outcomes
        rebuild.contexts = .ok projection) :
      RebuildRun limits rules digest (rebuild :: rebuilds) projection

/-- Whether a snapshot read the path of a locator: a complete one read what it
planned, a bounded one what it inspected, of a directory anything beneath it. -/
def readsPath (snapshot : RepositorySnapshot) (locator : ArtifactLocator) : Bool :=
  match snapshot.coverage with
  | .complete => decide (locator.path ∈ snapshot.plannedPaths)
  | .incomplete .. => snapshotCovers snapshot locator

/-- The snapshot of a rebuild, if it read the path of a reference. -/
def readingOf (projected : ProjectedEngineeringReference) (rebuild : Rebuild) :
    Option RepositorySnapshot :=
  match outcomeOf rebuild.outcomes projected.reference.repositoryId with
  | some (.available snapshot) =>
      if readsPath snapshot projected.reference.locator then some snapshot else none
  | _ => none

def lastReading (projected : ProjectedEngineeringReference) (rebuilds : List Rebuild) :
    Option RepositorySnapshot :=
  rebuilds.findSome? (readingOf projected)

/-- The repository of a reference was available to every rebuild. -/
def StaysAvailable (projected : ProjectedEngineeringReference) (rebuilds : List Rebuild) : Prop :=
  ∀ rebuild ∈ rebuilds, ∃ snapshot, .available snapshot ∈ rebuild.outcomes ∧
    snapshot.repositoryId = projected.reference.repositoryId

/-- A reference was part of every rebuild since the last that read its path. -/
def KeptSince (projected : ProjectedEngineeringReference) : List Rebuild → Prop
  | [] => True
  | rebuild :: rebuilds => projected ∈ rebuild.references ∧
      (readingOf projected rebuild = none → KeptSince projected rebuilds)

/-- A reference has one entry, which is its answer against a snapshot, or
unavailable without one. -/
def AnsweredBy (projected : ProjectedEngineeringReference) (reading : Option RepositorySnapshot)
    (projection : EngineeringProjection) : Prop :=
  ∃ entry ∈ projection.references, Names projected entry ∧
    (∀ other ∈ projection.references, other.referenceId = projected.reference.referenceId →
      other = entry) ∧
    match reading with
    | some snapshot => ∃ base, resolveOne projected (some (.available snapshot)) = .ok base ∧
        entry = { base with artifactGeneration := projection.artifactGeneration }
    | none => entry.resolution.status = .unavailable

/-! ### What a scan does not cover it does not hold -/

section Grounded

theorem modulePath_beneath {path : RepoRelativePath} {directory : String}
    (inside : modulePath path.text = some directory) : Beneath directory path := by
  unfold modulePath at inside
  split_ifs at inside with root
  obtain rfl := Option.some.inj inside
  unfold Beneath
  unfold parentChars at root ⊢
  have split := List.takeWhile_append_dropWhile
    (p := fun character => decide (character ≠ '/')) (l := path.text.toList.reverse)
  cases left : path.text.toList.reverse.dropWhile fun character => decide (character ≠ '/') with
  | nil =>
      rw [left] at root
      exact absurd rfl root
  | cons separator rest =>
      have slash : separator = '/' := by
        have stopped := List.head?_dropWhile_not (fun character => decide (character ≠ '/'))
          path.text.toList.reverse
        rw [left] at stopped
        simpa using stopped
      rw [left, slash] at split
      have whole := congrArg List.reverse split
      rw [List.reverse_reverse, List.reverse_append, List.reverse_cons] at whole
      rw [← whole]
      simp

variable {limits : RepositoryScannerLimits} {rules : ScanRules} {repository : RepositoryIdentity}
  {checkout : Checkout} {plan : RepositoryScanPlan} {checks : Option Nat}
  {snapshot : RepositorySnapshot} {projected : ProjectedEngineeringReference}

theorem parsed_inspected {sources : List SourceFile}
    (read : readSources limits checkout (plan.paths.take (checks.getD plan.paths.length)) =
      .ok sources) :
    ∀ source ∈ parsedWithin checks plan.paths sources,
      source.path ∈ inspectedWithin checks plan.paths sources := by
  simp only [readSources, Result.bind_eq_ok, Result.pure_eq_ok] at read
  obtain ⟨state, folded, rfl⟩ := read
  obtain ⟨-, -, -, found, content, ordered⟩ :=
    readPaths_unbounded (ReadState.start none) folded
  rw [show (ReadState.start none).sources = [] from rfl, List.nil_append] at content
  subst content
  intro source parsed
  have distinct : (state.sources.map SourceFile.path).Nodup :=
    plan.nodup.sublist (ordered.trans (List.take_sublist _ _))
  unfold parsedWithin at parsed
  simp only [inspectedWithin, List.mem_filter, decide_eq_true_eq]
  refine ⟨ordered.subset (List.mem_map_of_mem (List.mem_of_mem_take parsed)), fun unparsed => ?_⟩
  rw [← List.take_append_drop
    ((checks.map fun left => left - plan.paths.length).getD state.sources.length) state.sources,
    List.map_append] at distinct
  exact (List.nodup_append.mp distinct).2.2 _ (List.mem_map_of_mem parsed) _ unparsed rfl

theorem scanned_grounded
    (scanned : scanBefore limits rules repository (some checkout) plan checks =
      .ok (some (.available snapshot)))
    (owned : projected.reference.repositoryId = snapshot.repositoryId)
    (kind : projected.reference.locator.kind = projected.reference.artifactKind)
    (held : holdsArtifact projected snapshot) :
    snapshotCovers snapshot projected.reference.locator := by
  obtain ⟨sources, read, evidences⟩ := scanBefore_evidence scanned
  rw [holdsArtifact_iff evidences (owned.trans evidences.owner) kind] at held
  obtain ⟨source, parsed, yielded⟩ := held
  have inspected := parsed_inspected read source parsed
  have located := mem_locatorsOf yielded
  rw [snapshotCovers_iff evidences]
  rcases evidences.coverage with whole | ⟨unfinished, incomplete⟩
  · exact .inl whole
  · refine .inr ⟨by simp [incomplete], ?_⟩
    split_ifs at located ⊢ with directory
    · exact ⟨source.path, inspected, modulePath_beneath located⟩
    · rw [located]
      exact inspected

end Grounded

/-! ### One rebuild -/

section OneRebuild

variable {limits : RepositoryScannerLimits} {rules : ScanRules} {digest : GenerationDigest}
  {rebuild : Rebuild} {previous : Option EngineeringProjection}
  {projection : EngineeringProjection} {projected : ProjectedEngineeringReference}

theorem covers_of_reads {snapshot : RepositorySnapshot} {locator : ArtifactLocator}
    (reads : readsPath snapshot locator) : snapshotCovers snapshot locator := by
  unfold readsPath at reads
  split at reads
  · rename_i complete
    unfold snapshotCovers
    simp [complete, ScanCoverage.coversDirectory, ScanCoverage.coversPath]
  · exact reads

theorem reads_of_covers {snapshot : RepositorySnapshot} (scanned : rebuild.Scanned limits rules)
    (taken : .available snapshot ∈ rebuild.outcomes) (listed : projected ∈ rebuild.references)
    (owned : projected.reference.repositoryId = snapshot.repositoryId)
    (covers : snapshotCovers snapshot projected.reference.locator) :
    readsPath snapshot projected.reference.locator := by
  unfold readsPath
  split
  · obtain ⟨repository, checkout, plan, checks, scan, planned⟩ := scanned snapshot taken
    obtain ⟨sources, -, evidences⟩ := scanBefore_evidence scan
    rw [evidences.planned]
    exact decide_eq_true ((planned _).mpr ⟨projected, listed, owned, rfl⟩)
  · exact covers

/-- The entry of a reference after a rebuild: the answer against the snapshot
if that read its path, else the one that is carried, else unavailable. -/
theorem rebuild_entry (scanned : rebuild.Scanned limits rules)
    (answers : Answers previous rebuild.references rebuild.outcomes projection)
    (listed : projected ∈ rebuild.references) {snapshot : RepositorySnapshot}
    (taken : .available snapshot ∈ rebuild.outcomes)
    (owned : projected.reference.repositoryId = snapshot.repositoryId) :
    ∃ base, { base with artifactGeneration := projection.artifactGeneration } ∈
        projection.references ∧ Names projected base ∧
      match readingOf projected rebuild with
      | some reading => resolveOne projected (some (.available reading)) = .ok base
      | none => snapshotCovers snapshot projected.reference.locator = false ∧
          (carryForward projected previous (some (.available snapshot)) = some base ∨
            carryForward projected previous (some (.available snapshot)) = none ∧
              base.resolution.status = .unavailable) := by
  obtain ⟨base, resolved, stored⟩ := answers.answered projected listed
  have found : outcomeOf rebuild.outcomes projected.reference.repositoryId =
      some (.available snapshot) :=
    (outcomeOf_eq_some answers.repositories).mpr ⟨taken, owned.symm⟩
  have names := resolveReference_names resolved
  obtain ⟨valid, answer, answered, chosen⟩ := resolveReference_eq_ok.mp resolved
  rw [found] at answered chosen
  refine ⟨base, stored, names, ?_⟩
  unfold readingOf
  rw [found]
  dsimp only
  cases covers : snapshotCovers snapshot projected.reference.locator with
  | true =>
      rw [if_pos (reads_of_covers scanned taken listed owned covers)]
      have fresh : carryForward projected previous (some (.available snapshot)) = none := by
        simp [carryForward, covers]
      rw [fresh, Option.getD_none] at chosen
      rw [← chosen]
      exact answered
  | false =>
      have unread : ¬ readsPath snapshot projected.reference.locator := fun reads => by
        rw [covers_of_reads reads] at covers
        exact absurd covers (by simp)
      rw [if_neg unread]
      refine ⟨rfl, ?_⟩
      cases kept : carryForward projected previous (some (.available snapshot)) with
      | some carried =>
          rw [kept, Option.getD_some] at chosen
          exact .inl (congrArg some chosen)
      | none =>
          rw [kept, Option.getD_none] at chosen
          refine .inr ⟨rfl, ?_⟩
          obtain ⟨repository, checkout, plan, checks, scan, -⟩ := scanned snapshot taken
          have absent : ¬ holdsArtifact projected snapshot := fun held => by
            rw [scanned_grounded scan owned (validate_projected valid) held] at covers
            exact absurd covers (by simp)
          have status := (resolveOne_status answered).2
          rw [if_neg absent, covers, if_neg (by simp)] at status
          rw [← chosen]
          exact status

theorem carryForward_entry {given : EngineeringProjection} {snapshot : RepositorySnapshot}
    {entry : ResolvedReferenceProjection}
    (unread : snapshotCovers snapshot projected.reference.locator = false)
    (stored : entry ∈ given.references) (names : Names projected entry)
    (single : ∀ other ∈ given.references,
      other.referenceId = projected.reference.referenceId → other = entry) :
    carryForward projected (some given) (some (.available snapshot)) =
      if entry.resolution.status = .unavailable then none else some entry := by
  simp only [carryForward, unread, Bool.false_eq_true, if_false, Option.bind_some]
  split_ifs with unavailable
  · rw [List.find?_eq_none]
    intro other otherStored matched
    simp only [Bool.and_eq_true, decide_eq_true_eq] at matched
    rw [single other otherStored matched.1.1.1.1] at matched
    exact matched.2 unavailable
  · cases found : given.references.find? _ with
    | none =>
        have unmatched := List.find?_eq_none.mp found entry stored
        simp [names.reference, names.context, names.revision, names.locator, unavailable]
          at unmatched
    | some other =>
        have matched := List.find?_some found
        simp only [Bool.and_eq_true, decide_eq_true_eq] at matched
        rw [single other (List.mem_of_find?_eq_some found) matched.1.1.1.1]

theorem lastReading_covers {rebuilds : List Rebuild} {snapshot : RepositorySnapshot}
    (reading : lastReading projected rebuilds = some snapshot) :
    snapshotCovers snapshot projected.reference.locator := by
  obtain ⟨rebuild, -, read⟩ := List.exists_of_findSome?_eq_some reading
  unfold readingOf at read
  split at read
  · split_ifs at read with reads
    obtain rfl := Option.some.inj read
    exact covers_of_reads reads
  · simp at read

theorem covered_status {snapshot : RepositorySnapshot} {base : ResolvedReferenceProjection}
    (covers : snapshotCovers snapshot projected.reference.locator)
    (resolved : resolveOne projected (some (.available snapshot)) = .ok base) :
    base.resolution.status ≠ .unavailable := by
  have status := (resolveOne_status resolved).2
  split_ifs at status
  · rcases status with resolved | ambiguous
    · simp [resolved]
    · simp [ambiguous]
  · simp [status]

theorem Answers.single {references : List ProjectedEngineeringReference}
    {outcomes : List RepositoryScanOutcome}
    (answers : Answers previous references outcomes projection)
    {entry : ResolvedReferenceProjection} (stored : entry ∈ projection.references)
    (names : entry.referenceId = projected.reference.referenceId) :
    ∀ other ∈ projection.references, other.referenceId = projected.reference.referenceId →
      other = entry := by
  intro other otherStored same
  exact List.inj_on_of_nodup_map answers.identified otherStored stored (same.trans names.symm)

end OneRebuild

/-! ### Runs -/

section Runs

variable {limits : RepositoryScannerLimits} {rules : ScanRules} {digest : GenerationDigest}
  {projected : ProjectedEngineeringReference}

theorem answeredBy_rebuild {rebuild : Rebuild} {previous : Option EngineeringProjection}
    {projection : EngineeringProjection} {before : Option RepositorySnapshot}
    (scanned : rebuild.Scanned limits rules)
    (answers : Answers previous rebuild.references rebuild.outcomes projection)
    (listed : projected ∈ rebuild.references)
    (available : ∃ snapshot, .available snapshot ∈ rebuild.outcomes ∧
      snapshot.repositoryId = projected.reference.repositoryId)
    (earlier : readingOf projected rebuild = none →
      match previous with
      | none => before = none
      | some given => AnsweredBy projected before given)
    (covered : ∀ snapshot ∈ before, snapshotCovers snapshot projected.reference.locator) :
    AnsweredBy projected ((readingOf projected rebuild).or before) projection := by
  obtain ⟨snapshot, taken, owned⟩ := available
  obtain ⟨base, stored, names, chosen⟩ := rebuild_entry scanned answers listed taken owned.symm
  refine ⟨_, stored, ⟨names.reference, names.context, names.revision, names.locator⟩,
    answers.single stored names.reference, ?_⟩
  cases reading : readingOf projected rebuild with
  | some current =>
      rw [reading] at chosen
      exact ⟨base, chosen, rfl⟩
  | none =>
      rw [reading] at chosen
      obtain ⟨unread, chosen⟩ := chosen
      have earlier := earlier reading
      rw [Option.none_or]
      cases previous with
      | none =>
          rw [carryForward_none] at chosen
          rcases chosen with kept | ⟨-, status⟩
          · simp at kept
          · simp only at earlier
            rw [earlier]
            exact status
      | some given =>
          obtain ⟨entry, entryStored, entryNames, single, content⟩ := earlier
          rw [carryForward_entry unread entryStored entryNames single] at chosen
          cases before with
          | none =>
              rw [if_pos content] at chosen
              rcases chosen with kept | ⟨-, status⟩
              · simp at kept
              · exact status
          | some last =>
              obtain ⟨prior, priorEq, rfl⟩ := content
              have answered : ¬ prior.resolution.status = .unavailable :=
                covered_status (covered last rfl) priorEq
              rw [if_neg answered] at chosen
              rcases chosen with kept | ⟨absent, -⟩
              · obtain rfl := Option.some.inj kept
                exact ⟨prior, priorEq, rfl⟩
              · simp at absent

theorem lastReading_cons (rebuild : Rebuild) (rebuilds : List Rebuild) :
    lastReading projected (rebuild :: rebuilds) =
      (readingOf projected rebuild).or (lastReading projected rebuilds) := by
  unfold lastReading
  rw [List.findSome?_cons]
  cases readingOf projected rebuild <;> rfl

theorem run_answers {rebuilds : List Rebuild} {projection : EngineeringProjection}
    (run : RebuildRun limits rules digest rebuilds projection)
    (available : StaysAvailable projected rebuilds) (kept : KeptSince projected rebuilds) :
    AnsweredBy projected (lastReading projected rebuilds) projection := by
  induction run with
  | first scanned resolved =>
      rw [lastReading_cons]
      exact answeredBy_rebuild scanned (resolveAgainst_answers resolved) kept.1
        (available _ List.mem_cons_self) (fun _ => rfl) (by simp [lastReading])
  | next run scanned resolved induction =>
      simp only [resolveIncremental, Result.seq_eq_ok] at resolved
      rw [lastReading_cons]
      refine answeredBy_rebuild scanned (resolveAgainst_answers resolved.2) kept.1
        (available _ List.mem_cons_self) (fun unread => ?_) fun last => lastReading_covers
      exact induction (fun rebuild earlier => available rebuild (List.mem_cons_of_mem _ earlier))
        (kept.2 unread)

/-- Bounded scans keep the answers of a complete one, but for half-read
directories, and a rebuild keeps those of the last reading. -/
theorem bounded_scans_keep_answers (limits : RepositoryScannerLimits) (rules : ScanRules)
    (digest : GenerationDigest) :
    (∀ repository checkout plan checks bounded complete,
      scanBefore limits rules repository (some checkout) plan (some checks) =
        .ok (some (.available bounded)) →
      scan limits rules repository (some checkout) plan = .ok (.available complete) →
      ∃ sources, readSources limits checkout plan.paths = .ok sources ∧
        (NeverLoses digest bounded complete ↔
          ∀ directory, ¬ HalfRead checks plan.paths sources directory)) ∧
    ∀ rebuilds projection projected, RebuildRun limits rules digest rebuilds projection →
      StaysAvailable projected rebuilds → KeptSince projected rebuilds →
      AnsweredBy projected (lastReading projected rebuilds) projection := by
  refine ⟨?_, fun rebuilds projection projected => run_answers⟩
  intro repository checkout plan checks bounded complete boundedScan completeScan
  obtain ⟨sources, read⟩ := readSources_of_scan completeScan
  exact ⟨sources, read, neverLoses_iff read boundedScan completeScan⟩

end Runs

/-! ### A half-read directory -/

section Sample

def parserPaths : List RepoRelativePath :=
  [⟨"src"⟩, ⟨"src/deep/a.rs"⟩, ⟨"src/lib.rs"⟩]

def parserPlan : RepositoryScanPlan where
  repositoryId := ⟨"parsers"⟩
  paths := parserPaths
  inOrder := by decide
  nonempty := by simp [parserPaths]

def parserRepository : RepositoryIdentity :=
  ⟨⟨"parsers"⟩, "Parsers"⟩

def parserCheckout : Checkout where
  headTreeOid := "tree"
  entry path :=
    if path.text = "src" then .missing
    else .file ⟨true, .ok true, 4, .ok (.text "text"), .trackedHead⟩

def parserLimits : RepositoryScannerLimits :=
  ⟨10000, 1024 * 1024, 32 * 1024 * 1024⟩

/-- No declarations, and one digest. -/
def plainRules : ScanRules where
  extract _ _ _ := []
  normalizeSignature := id
  apiProtocol _ := "http"
  apiOperation _ := "ANY"
  normalizeApiKey := id
  schemaVersion _ := "unversioned"
  snapshotGeneration _ _ _ _ _ _ := "snap"

def plainDigest : GenerationDigest :=
  fun _ _ _ _ => "digest"

def sourceObservation (path : RepoRelativePath) : ArtifactObservation :=
  ⟨path, none, .rust, .trackedHead⟩

def parserArtifact (locator : ArtifactLocator) (displayName : String) (path : RepoRelativePath) :
    SnapshotArtifact :=
  ⟨⟨parserRepository, ⟨⟨"parsers"⟩, locator⟩, displayName⟩, [sourceObservation path]⟩

def halfSnapshot : RepositorySnapshot where
  repositoryId := ⟨"parsers"⟩
  headTreeOid := "tree"
  generation := "snap"
  plannedPaths := parserPaths
  coverage := .incomplete [⟨"src"⟩, ⟨"src/deep/a.rs"⟩] [⟨"src/lib.rs"⟩]
  artifacts := [parserArtifact (.file ⟨"src/deep/a.rs"⟩) "src/deep/a.rs" ⟨"src/deep/a.rs"⟩,
    parserArtifact (.module ⟨"src/deep"⟩) "src/deep" ⟨"src/deep/a.rs"⟩]
  scannedFiles := 1
  scannedBytes := 4
  skippedFiles := [⟨⟨"src"⟩, .unsupportedLanguage⟩]

def wholeSnapshot : RepositorySnapshot where
  repositoryId := ⟨"parsers"⟩
  headTreeOid := "tree"
  generation := "snap"
  plannedPaths := parserPaths
  coverage := .complete
  artifacts := [parserArtifact (.file ⟨"src/deep/a.rs"⟩) "src/deep/a.rs" ⟨"src/deep/a.rs"⟩,
    parserArtifact (.module ⟨"src/deep"⟩) "src/deep" ⟨"src/deep/a.rs"⟩,
    parserArtifact (.file ⟨"src/lib.rs"⟩) "src/lib.rs" ⟨"src/lib.rs"⟩,
    parserArtifact (.module ⟨"src"⟩) "src" ⟨"src/lib.rs"⟩]
  scannedFiles := 2
  scannedBytes := 8
  skippedFiles := [⟨⟨"src"⟩, .unsupportedLanguage⟩]

theorem halfSnapshot_scanned :
    scanBefore parserLimits plainRules parserRepository (some parserCheckout) parserPlan (some 4) =
      .ok (some (.available halfSnapshot)) := by
  decide

theorem wholeSnapshot_scanned :
    scan parserLimits plainRules parserRepository (some parserCheckout) parserPlan =
      .ok (.available wholeSnapshot) := by
  decide

/-- A file and two directories of a repository, referenced by one Context. -/
def parserReference (number : Nat) (kind : ArtifactKind) (locator : ArtifactLocator) :
    ProjectedEngineeringReference where
  contextId := soleContext.contextId
  revisionId := soleContext.revision.revisionId
  reference :=
    { referenceId := ⟨BitVec.ofNat 128 number⟩
      repositoryId := ⟨"parsers"⟩
      artifactKind := kind
      relation := .dependsOn
      locator := locator
      supports := "the parsers live there"
      limitations := [] }

def parserReferences : List ProjectedEngineeringReference :=
  [parserReference 0 .module (.module ⟨"src"⟩), parserReference 1 .file (.file ⟨"src/deep/a.rs"⟩),
    parserReference 2 .file (.file ⟨"src/lib.rs"⟩)]

def resolveStatuses (snapshot : RepositorySnapshot) : Result (List ResolutionStatus) := do
  let projection ← resolve plainDigest parserReferences [.available snapshot] [soleContext]
  pure (projection.references.map fun entry => entry.resolution.status)

def parserSources : List SourceFile :=
  [⟨⟨"src/deep/a.rs"⟩, .rust, .trackedHead, "text"⟩, ⟨⟨"src/lib.rs"⟩, .rust, .trackedHead, "text"⟩]

theorem parserSources_read :
    readSources parserLimits parserCheckout parserPlan.paths = .ok parserSources := by
  decide

theorem src_halfRead : HalfRead 4 parserPlan.paths parserSources "src" where
  inspected := ⟨⟨"src/deep/a.rs"⟩, by decide, by unfold Beneath; decide⟩
  unparsed := by decide
  answered := by decide

/-- The directory `src` is missing although a complete scan resolves it. -/
theorem half_read_directory_is_lost :
    scanBefore parserLimits plainRules parserRepository (some parserCheckout) parserPlan (some 4) =
        .ok (some (.available halfSnapshot)) ∧
      scan parserLimits plainRules parserRepository (some parserCheckout) parserPlan =
        .ok (.available wholeSnapshot) ∧
      resolveStatuses halfSnapshot = .ok [.missing, .resolved, .unavailable] ∧
      resolveStatuses wholeSnapshot = .ok [.resolved, .resolved, .resolved] ∧
      ¬ NeverLoses plainDigest halfSnapshot wholeSnapshot := by
  refine ⟨halfSnapshot_scanned, wholeSnapshot_scanned, by decide +kernel, by decide +kernel, ?_⟩
  intro neverLoses
  exact (neverLoses_iff parserSources_read halfSnapshot_scanned wholeSnapshot_scanned).mp
    neverLoses "src" src_halfRead

def parserRebuild (snapshot : RepositorySnapshot) : Rebuild :=
  ⟨parserReferences, [.available snapshot], [soleContext]⟩

theorem parserRebuild_scanned {snapshot : RepositorySnapshot} {checks : Option Nat}
    (scanned : scanBefore parserLimits plainRules parserRepository (some parserCheckout) parserPlan
      checks = .ok (some (.available snapshot)))
    (owned : snapshot.repositoryId = ⟨"parsers"⟩) :
    (parserRebuild snapshot).Scanned parserLimits plainRules := by
  intro taken listed
  obtain rfl : taken = snapshot := by simpa [parserRebuild] using listed
  refine ⟨parserRepository, parserCheckout, parserPlan, checks, scanned, fun path => ?_⟩
  rw [owned]
  simp [parserPlan, parserPaths, parserRebuild, parserReferences, parserReference,
    ArtifactLocator.path, eq_comm]

theorem exists_of_isOk {α : Type} {result : Result α} (passed : result.isOk) :
    ∃ value, result = .ok value := by
  cases result with
  | ok value => exact ⟨value, rfl⟩
  | error error => simp [Result.isOk] at passed

/-- After a complete scan and a half scan, the unread file keeps its answer. -/
theorem bounded_scans_keep_answers_parsers :
    ∃ projection,
      RebuildRun parserLimits plainRules plainDigest
        [parserRebuild halfSnapshot, parserRebuild wholeSnapshot] projection ∧
      AnsweredBy (parserReference 2 .file (.file ⟨"src/lib.rs"⟩)) (some wholeSnapshot)
        projection := by
  have whole : scanBefore parserLimits plainRules parserRepository (some parserCheckout) parserPlan
      none = .ok (some (.available wholeSnapshot)) := by decide
  have both : (do
      let first ← resolve plainDigest parserReferences [.available wholeSnapshot] [soleContext]
      resolveIncremental plainDigest first parserReferences [.available halfSnapshot]
        [soleContext]).isOk := by decide
  obtain ⟨second, secondEq⟩ := exists_of_isOk both
  obtain ⟨first, firstEq, secondEq⟩ := Result.bind_eq_ok.mp secondEq
  have run : RebuildRun parserLimits plainRules plainDigest
      [parserRebuild halfSnapshot, parserRebuild wholeSnapshot] second :=
    .next (.first (parserRebuild_scanned whole rfl) firstEq)
      (parserRebuild_scanned halfSnapshot_scanned rfl) secondEq
  refine ⟨second, run, ?_⟩
  refine (bounded_scans_keep_answers parserLimits plainRules plainDigest).2 _ _
    (parserReference 2 .file (.file ⟨"src/lib.rs"⟩)) run ?_ ?_
  · intro rebuild listed
    simp only [List.mem_cons, List.not_mem_nil, or_false] at listed
    rcases listed with rfl | rfl
    · exact ⟨halfSnapshot, by simp [parserRebuild], rfl⟩
    · exact ⟨wholeSnapshot, by simp [parserRebuild], rfl⟩
  · simp [KeptSince, parserRebuild, parserReferences]

end Sample

end SharedContext.EngineeringGraph
