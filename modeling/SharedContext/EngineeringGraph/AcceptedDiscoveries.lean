import SharedContext.EngineeringGraph.ExtractedNames

/-!
# Accepted discoveries

A scan fails on the first discovery that is no valid artifact.  What a
discovery needs is a name, and of an API a route of one word.
-/

namespace SharedContext.EngineeringGraph

open SharedContext.Words

/-! ### Paths -/

def isDotSegment (component : List Char) : Bool :=
  component == [] || component == ['.'] || component == ['.', '.']

theorem validateRepoRelativePath_eq_ok {value : String} :
    validateRepoRelativePath value = .ok () ↔ isBlank value = false ∧
      value.toList.head? ≠ some '/' ∧ '\\' ∉ value.toList ∧
      ∀ component ∈ value.toList.splitOn '/', isDotSegment component = false := by
  unfold validateRepoRelativePath
  simp only [Result.seq_eq_ok, requireText_eq_ok]
  split
  · rename_i rooted
    simp only [Bool.or_eq_true, decide_eq_true_eq, List.contains_iff_mem] at rooted
    rcases rooted with rooted | backslash <;> simp_all
  · rename_i relative
    simp only [Bool.or_eq_true, decide_eq_true_eq, List.contains_iff_mem, not_or] at relative
    split
    · rename_i dotted
      obtain ⟨component, listed, dot⟩ := List.any_eq_true.mp dotted
      refine iff_of_false (by simp) ?_
      rintro ⟨-, -, -, plain⟩
      exact absurd dot (Bool.eq_false_iff.mp (plain component listed))
    · rename_i plain
      simp only [Bool.not_eq_true, List.any_eq_false] at plain
      simp only [Result.pure_eq_ok, and_true]
      refine ⟨fun notBlank => ⟨notBlank, relative.1, relative.2, ?_⟩, And.left⟩
      exact fun component listed => plain component listed

theorem parentChars_of_name {path : String} {name : List Char} (unnested : '/' ∉ name)
    {directory : List Char} (split : path.toList = directory ++ '/' :: name) :
    parentChars path = directory := by
  have whole : ∀ character ∈ name.reverse, decide (character ≠ '/') = true := by
    intro character member
    have listed : character ∈ name := by simpa using member
    exact decide_eq_true fun same => unnested (same ▸ listed)
  have reversed : path.toList.reverse = name.reverse ++ '/' :: directory.reverse := by
    simp [split]
  rw [parentChars, reversed, List.dropWhile_append_of_pos whole]
  simp

theorem split_modulePath {path directory : String} (within : modulePath path = some directory) :
    directory.toList ≠ [] ∧ ∃ name, path.toList = directory.toList ++ '/' :: name := by
  unfold modulePath at within
  split at within
  · simp at within
  · rename_i nested
    rw [← Option.some.inj within, String.toList_ofList]
    refine ⟨nested, ?_⟩
    rcases split_last_separator (fun character => decide (character = '/')) path.toList with
      single | ⟨before, separator, name, split, separates, unnested⟩
    · have whole : path.toList.reverse.dropWhile (fun character => decide (character ≠ '/')) = [] :=
        List.dropWhile_eq_nil_iff.mpr (by simpa using single)
      exact absurd (by simp only [parentChars, whole]; rfl) nested
    · have slash : separator = '/' := by simpa using separates
      subst slash
      have parent := parentChars_of_name (fun member => by simpa using unnested '/' member) split
      exact ⟨name, by rw [parent, split]⟩

theorem validate_directory {path directory : String}
    (valid : validateRepoRelativePath path = .ok ()) (within : modulePath path = some directory) :
    validateRepoRelativePath directory = .ok () ↔ isBlank directory = false := by
  obtain ⟨nonempty, name, split⟩ := split_modulePath within
  obtain ⟨-, relative, noBackslash, plain⟩ := validateRepoRelativePath_eq_ok.mp valid
  rw [validateRepoRelativePath_eq_ok]
  refine ⟨And.left, fun notBlank => ⟨notBlank, ?_, ?_, ?_⟩⟩
  · obtain ⟨first, rest, cons⟩ := List.exists_cons_of_ne_nil nonempty
    simpa [split, cons] using relative
  · exact fun member => noBackslash (by simp [split, member])
  · intro component listed
    refine plain component ?_
    rw [split, List.splitOn_eq_splitOnP, List.splitOnP_append_cons _ _ (by simp)]
    exact List.mem_append_left _ (by rwa [List.splitOn_eq_splitOnP] at listed)

/-! ### What a scan accepts -/

section Acceptance

variable {rules : ScanRules} {repository : RepositoryIdentity} {source : SourceFile}

/-- A discovery that is no artifact, or is one that can be located and shown. -/
def Accepted (rules : ScanRules) (source : SourceFile) (discovery : Discovery) : Prop :=
  ∀ locator ∈ discoveryLocator rules source discovery,
    locator.validate = .ok () ∧ isBlank discovery.name = false

theorem artifact_succeeds_iff (validRepository : repository.validate = .ok ())
    (locator : ArtifactLocator) (name : String) :
    (∃ entry, artifact repository locator name = .ok entry) ↔
      locator.validate = .ok () ∧ isBlank name = false := by
  simp only [artifact, EngineeringArtifact.validate, ArtifactKey.validate, Result.seq_eq_ok,
    Result.pure_eq_ok, Result.require_eq_ok, requireText_eq_ok, validRepository]
  constructor
  · rintro ⟨entry, located, ⟨-, -, shown, -⟩, -⟩
    exact ⟨located, shown⟩
  · rintro ⟨located, shown⟩
    exact ⟨_, located, ⟨trivial, located, shown, trivial⟩, rfl⟩

theorem scanDiscovery_succeeds_iff (validRepository : repository.validate = .ok ())
    (artifacts : List SnapshotArtifact) (discovery : Discovery) :
    (∃ added, scanDiscovery rules repository source artifacts discovery = .ok added) ↔
      Accepted rules source discovery := by
  cases located : discoveryLocator rules source discovery with
  | none => simp [scanDiscovery, Accepted, located]
  | some locator =>
      have built := artifact_succeeds_iff validRepository locator discovery.name
      simp only [scanDiscovery, Accepted, located, Result.bind_eq_ok, Result.pure_eq_ok,
        Option.mem_def, Option.some.injEq, forall_eq']
      rw [← built]
      constructor
      · rintro ⟨added, entry, isBuilt, -⟩
        exact ⟨entry, isBuilt⟩
      · rintro ⟨entry, isBuilt⟩
        exact ⟨_, entry, isBuilt, rfl⟩

theorem scanDiscoveries_succeed_iff (validRepository : repository.validate = .ok ())
    (artifacts : List SnapshotArtifact) (discoveries : List Discovery) :
    (∃ added, discoveries.foldlM (scanDiscovery rules repository source) artifacts = .ok added) ↔
      ∀ discovery ∈ discoveries, Accepted rules source discovery := by
  induction discoveries generalizing artifacts with
  | nil => simp [pure, Except.pure]
  | cons discovery rest ih =>
      simp only [List.foldlM_cons, Result.bind_eq_ok, List.forall_mem_cons]
      rw [← scanDiscovery_succeeds_iff validRepository artifacts discovery]
      constructor
      · rintro ⟨added, next, scanned, rested⟩
        exact ⟨⟨next, scanned⟩, (ih next).mp ⟨added, rested⟩⟩
      · rintro ⟨⟨next, scanned⟩, accepted⟩
        obtain ⟨added, rested⟩ := (ih next).mpr accepted
        exact ⟨added, next, scanned, rested⟩

theorem scanModule_succeeds_iff (validRepository : repository.validate = .ok ())
    (artifacts : List SnapshotArtifact) :
    (∃ added, scanModule repository source artifacts = .ok added) ↔
      ∀ directory ∈ modulePath source.path.text, validateRepoRelativePath directory = .ok () := by
  unfold scanModule
  cases within : modulePath source.path.text with
  | none => simp
  | some directory =>
      have name : moduleName source.path.text = directory := by simp [moduleName, within]
      have built := artifact_succeeds_iff validRepository (.module ⟨directory⟩) directory
      have located : (ArtifactLocator.module ⟨directory⟩).validate = .ok () ↔
          validateRepoRelativePath directory = .ok () := by
        simp [ArtifactLocator.validate, ArtifactLocator.path]
      have shown (valid : validateRepoRelativePath directory = .ok ()) :
          isBlank directory = false := (validateRepoRelativePath_eq_ok.mp valid).1
      simp only [name, Result.bind_eq_ok, Result.pure_eq_ok, Option.mem_def,
        Option.some.injEq, forall_eq']
      rw [located, and_iff_left_of_imp shown] at built
      rw [← built]
      constructor
      · rintro ⟨added, entry, isBuilt, -⟩
        exact ⟨entry, isBuilt⟩
      · rintro ⟨entry, isBuilt⟩
        exact ⟨_, entry, isBuilt, rfl⟩

end Acceptance

/-! ### Discoveries that can be named -/

/-- A route of one word, when white space and slashes after it are cut as often
as the code does. -/
def OneRoute (room : Nat) (route : List Char) : Prop :=
  OneWord isWhiteSpace '/' room route

theorem oneRoute_normalizeApiKey {room : Nat} (route : List Char) :
    OneRoute room (normalizeApiKey route) ↔ OneRoute (room + 1) route :=
  oneWord_cut_iff (by decide) route

/-- What a discovery needs to be located and shown. -/
def Named (discovery : Discovery) : Prop :=
  match discovery.kind with
  | .symbol => isBlank discovery.name = false ∧
      isBlank (normalizeSignature discovery.source) = false
  | .test | .schema => isBlank discovery.name = false
  | .api => OneRoute 1 discovery.name.toList
  | .module | .file => True

theorem apiProtocol_notBlank (source : String) : isBlank (apiProtocol source) = false := by
  unfold apiProtocol
  split <;> decide

theorem apiOperation_notBlank (source : String) : isBlank (apiOperation source) = false := by
  obtain found | ⟨-, isAny⟩ := Option.getD_eq_iff.mp (Eq.refl (apiOperation source))
  · obtain ⟨entry, listed, named⟩ := List.exists_of_findSome?_eq_some found
    have allNamed : ∀ entry ∈ operationNeedles, isBlank entry.2 = false := by decide
    simp only [ite_eq_iff, Option.some.injEq, reduceCtorEq, and_false, or_false] at named
    rw [← named.2]
    exact allNamed entry listed
  · rw [← isAny]
    decide

theorem schemaVersion_notBlank (source : String) : isBlank (schemaVersion source) = false := by
  unfold schemaVersion
  simp only
  cases found : (source.toList.splitOnP fun character =>
      !character.isAlphanum && character ≠ '.').find? fun part =>
        part.head? = some 'v' && (part.drop 1).all Char.isDigit with
  | none => simp only [Option.map_none, Option.getD_none]; decide
  | some part =>
      have version := List.find?_some found
      simp only [Bool.and_eq_true, decide_eq_true_eq] at version
      obtain ⟨rest, rfl⟩ := List.head?_eq_some_iff.mp version.1
      simp only [Option.map_some, Option.getD_some]
      rw [isBlank_ofList]
      exact words_cons_ne_nil rest (by decide)

section Naming

variable {classes : CharacterClasses} {parseJson : String → Option Value}
  {snapshotGeneration : RepositoryIdentity → String → List RepoRelativePath → ScanCoverage →
    List SourceFile → List SkippedFile → String}
  {source : SourceFile}

theorem languageName_notBlank (language : SourceLanguage) :
    isBlank (languageName language) = false := by
  cases language <;> decide

theorem accepted_iff (validPath : validateRepoRelativePath source.path.text = .ok ())
    (inModule : isBlank (moduleName source.path.text) = false) (discovery : Discovery) :
    Accepted (sourceRules classes parseJson snapshotGeneration) source discovery ↔
      Named discovery := by
  unfold Accepted Named discoveryLocator
  cases discovery.kind with
  | module => simp
  | file => simp
  | symbol =>
      simp only [Option.mem_def, Option.some.injEq, forall_eq', ArtifactLocator.validate,
        ArtifactLocator.path, Result.seq_eq_ok, requireText_eq_ok, validateOptionalText,
        validPath, inModule, languageName_notBlank, sourceRules, true_and]
      exact and_iff_left_of_imp And.left
  | test =>
      have qualified (name : String) (notBlank : isBlank name = false) :
          isBlank (moduleName source.path.text ++ "::" ++ name) = false :=
            isBlank_append_right notBlank
      simp only [Option.mem_def, Option.some.injEq, forall_eq', ArtifactLocator.validate,
        ArtifactLocator.path, Result.seq_eq_ok, requireText_eq_ok, validPath, true_and]
      exact and_iff_right_of_imp (qualified discovery.name)
  | api =>
      have oneWord : OneRoute 1 discovery.name.toList ↔
          splitWhitespaceCount (String.ofList (normalizeApiKey discovery.name.toList)) = 1 := by
        rw [splitWhitespaceCount_ofList, ← oneRoute_normalizeApiKey]
        exact oneWord_zero_iff
      have shown (single : OneRoute 1 discovery.name.toList) : isBlank discovery.name = false :=
        isBlank_eq_false_iff.mpr single.1
      have routed (single : OneRoute 1 discovery.name.toList) :
          isBlank (String.ofList (normalizeApiKey discovery.name.toList)) = false :=
        (isBlank_ofList _).mpr ((oneRoute_normalizeApiKey discovery.name.toList).mpr single).1
      simp only [Option.mem_def, Option.some.injEq, forall_eq', ArtifactLocator.validate,
        ArtifactLocator.path, Result.seq_eq_ok, requireText_eq_ok, validPath,
        apiProtocol_notBlank, apiOperation_notBlank, sourceRules, true_and]
      rw [oneWord] at shown routed ⊢
      by_cases single :
          splitWhitespaceCount (String.ofList (normalizeApiKey discovery.name.toList)) = 1
      · simp [single, shown single, routed single]
      · simp [single]
  | schema =>
      have qualified (name : String) (notBlank : isBlank name = false) :
          isBlank (moduleName source.path.text ++ "::" ++ name) = false :=
            isBlank_append_right notBlank
      simp only [Option.mem_def, Option.some.injEq, forall_eq', ArtifactLocator.validate,
        ArtifactLocator.path, Result.seq_eq_ok, requireText_eq_ok, validPath, inModule,
        schemaVersion_notBlank, sourceRules, true_and]
      exact and_iff_right_of_imp (qualified discovery.name)

end Naming

end SharedContext.EngineeringGraph
