import SharedContext.EngineeringGraph.AcceptedDiscoveries

/-!
# Harmless sources

A source is harmless when a scan can name all that is found in it, which can
be told from its text.  One source that is not harmless fails the whole scan.
-/

namespace SharedContext.EngineeringGraph

open SharedContext.Words

/-! ### Places in a text -/

/-- A property of every element, given the elements before it. -/
def Everywhere {α : Type} (holds : List α → α → Prop) (items : List α) : Prop :=
  ∀ before item after, items = before ++ item :: after → holds before item

@[simp]
theorem everywhere_nil {α : Type} (holds : List α → α → Prop) : Everywhere holds [] := by
  simp [Everywhere]

theorem everywhere_cons {α : Type} {holds : List α → α → Prop} {first : α} {rest : List α} :
    Everywhere holds (first :: rest) ↔
      holds [] first ∧ Everywhere (fun before => holds (first :: before)) rest := by
  constructor
  · intro everywhere
    refine ⟨everywhere [] first rest rfl, ?_⟩
    rintro before item after rfl
    exact everywhere (first :: before) item after rfl
  · rintro ⟨holdsFirst, everywhere⟩ before item after split
    cases before with
    | nil =>
        obtain ⟨rfl, -⟩ := List.cons.inj split
        exact holdsFirst
    | cons _ before =>
        obtain ⟨rfl, rest⟩ := List.cons.inj split
        exact everywhere before item after rest

/-! ### Code -/

section Code

variable (classes : CharacterClasses) (language : SourceLanguage)

/-- A line stands directly beneath a test annotation. -/
def beneathTest (isTest : Bool) (before : List (List Char)) : Bool :=
  match before.getLast? with
  | none => isTest
  | some previous => isTestAnnotation language (trimLine previous)

/-- A line of code in which all that is found has a name. -/
structure HarmlessLine (isTest : Bool) (trimmed : List Char) : Prop where
  routes : mentionsApi trimmed = true →
    ∀ value ∈ quotedValues trimmed, looksLikeRoute value = true → OneRoute 2 value
  testNames : language = .typeScriptJavaScript → startsTestCall trimmed = true →
    ∀ name ∈ (quotedValues trimmed).head?, isBlank (String.ofList name) = false
  methods : language = .java → isTest = false → declaresJavaMethod classes trimmed = true →
    startsSignature trimmed = true

def HarmlessCode (isTest : Bool) (text : List (List Char)) : Prop :=
  Everywhere (fun before line => isTestAnnotation language (trimLine line) = false →
    HarmlessLine classes language (beneathTest language isTest before) (trimLine line)) text

variable {classes language}

theorem beneathTest_cons (isTest : Bool) (first : List Char) (before : List (List Char)) :
    beneathTest language isTest (first :: before) =
      beneathTest language ( isTestAnnotation language (trimLine first)) before := by
  cases before with
  | nil => rfl
  | cons second rest => simp [beneathTest, List.getLast?_cons]

theorem apiKeys_named_iff (index : Nat) (trimmed : List Char) :
    (∀ key ∈ apiKeys trimmed, Named (foundIn .api index trimmed key)) ↔
      (mentionsApi trimmed = true →
        ∀ value ∈ quotedValues trimmed, looksLikeRoute value = true → OneRoute 2 value) := by
  have named (value : List Char) :
      Named (foundIn .api index trimmed (normalizeApiKey value)) ↔ OneRoute 2 value := by
    simp only [Named, foundIn, String.toList_ofList]
    exact oneRoute_normalizeApiKey value
  unfold apiKeys
  split
  · rename_i mentioned
    simp only [List.forall_mem_map, List.mem_filter, named, mentioned, and_imp, forall_const]
  · rename_i silent
    simp [silent]

theorem named_declared_iff {kind : ArtifactKind} {name line : List Char} (index : Nat)
    (rest : List (List Char)) (single : '\n' ∉ line) (named : IsName name)
    (notApi : kind ≠ .api) :
    Named (foundIn kind index (declarationSource (line :: rest)) name) ↔
      (kind = .symbol → startsSignature (trimLine line) = true) := by
  have signature := signature_notBlank_iff rest single
  cases kind <;> simp_all [Named, foundIn, named.notBlank]

theorem declared_named_iff {isTest : Bool} (index : Nat) {line : List Char}
    (rest : List (List Char)) (single : '\n' ∉ line) :
    (∀ token ∈ declarationParser classes language (trimLine line) isTest,
      Named (foundIn token.1 index (declarationSource (line :: rest)) token.2)) ↔
      (language = .java → isTest = false → declaresJavaMethod classes (trimLine line) = true →
        startsSignature (trimLine line) = true) := by
  constructor
  · rintro allNamed rfl rfl shaped
    obtain ⟨name, declared⟩ := javaDeclaration_method false shaped
    have inJava : (testOr false .symbol, name) ∈
        declarationParser classes .java (trimLine line) false := declared
    obtain ⟨named, notApi, -⟩ := declared_plain inJava
    exact (named_declared_iff index rest single named notApi).mp (allNamed _ declared) rfl
  · rintro methods ⟨kind, name⟩ declared
    obtain ⟨named, notApi, signature⟩ := declared_plain declared
    refine (named_declared_iff index rest single named notApi).mpr fun isSymbol => ?_
    rcases signature with starts | ⟨isJava, shaped, isMethod⟩
    · exact starts
    · refine methods isJava ?_ shaped
      cases isTest with
      | false => rfl
      | true => simp [isMethod, testOr] at isSymbol

theorem lineDiscoveries_named_iff {isTest : Bool} (index : Nat) {line : List Char}
    (rest : List (List Char)) (single : '\n' ∉ line) :
    (∀ discovery ∈ lineDiscoveries classes language isTest index line rest, Named discovery) ↔
      HarmlessLine classes language isTest (trimLine line) := by
  have testNamed (name : List Char) :
      Named (foundIn .test index (trimLine line) name) ↔
        isBlank (String.ofList name) = false := by simp [Named, foundIn]
  have called : (∀ name ∈ (if language = .typeScriptJavaScript then testCallName (trimLine line)
        else none).toList, isBlank (String.ofList name) = false) ↔
      (language = .typeScriptJavaScript → startsTestCall (trimLine line) = true →
        ∀ name ∈ (quotedValues (trimLine line)).head?, isBlank (String.ofList name) = false) := by
    unfold testCallName
    split_ifs <;> simp_all
  simp only [lineDiscoveries, List.mem_append, or_imp, forall_and, List.forall_mem_map,
    testNamed, called, apiKeys_named_iff, declared_named_iff index rest single]
  constructor
  · rintro ⟨⟨methods, routes⟩, testNames⟩
    exact ⟨routes, testNames, methods⟩
  · rintro ⟨routes, testNames, methods⟩
    exact ⟨⟨methods, routes⟩, testNames⟩

theorem codeDiscoveries_named_iff {isTest : Bool} (index : Nat) {text : List (List Char)}
    (single : ∀ line ∈ text, '\n' ∉ line) :
    (∀ discovery ∈ codeDiscoveries classes language isTest index text, Named discovery) ↔
      HarmlessCode classes language isTest text := by
  unfold HarmlessCode
  induction text generalizing isTest index with
  | nil => simp [codeDiscoveries]
  | cons line rest ih =>
      have restSingle : ∀ line ∈ rest, '\n' ∉ line := fun line member =>
        single line (by simp [member])
      simp only [everywhere_cons, beneathTest_cons, codeDiscoveries]
      cases annotation : isTestAnnotation language (trimLine line) with
      | true =>
          simpa using ih (index + 1) restSingle
      | false =>
          simp only [Bool.false_eq_true, if_false, List.mem_append, or_imp, forall_and,
            forall_const, ih (index + 1) restSingle]
          exact and_congr_left fun _ =>
            lineDiscoveries_named_iff index rest (single line (by simp))

end Code

/-! ### JSON -/

/-- A document whose name, routes and schemas can be named. -/
structure HarmlessDocument (path : RepoRelativePath) (document : Value) : Prop where
  name : isBlank (documentName path document) = false
  routes : (member "openapi" document).isSome = true → ∀ route ∈ openapiPaths document,
    (∃ operation ∈ members route.2, isHttpOperation operation.1 = true) →
      OneRoute 1 route.1.toList
  schemas : (member "openapi" document).isSome = true → ∀ schema ∈ openapiSchemas document,
    isBlank schema.1 = false

theorem routeDiscoveries_named_iff (route : String) (operations : Value) :
    (∀ discovery ∈ routeDiscoveries route operations, Named discovery) ↔
      ((∃ operation ∈ members operations, isHttpOperation operation.1 = true) →
        OneRoute 1 route.toList) := by
  simp only [routeDiscoveries, List.forall_mem_map, List.mem_filter, Named]
  constructor
  · rintro allNamed ⟨operation, listed, http⟩
    exact allNamed operation ⟨listed, http⟩
  · rintro routed operation ⟨listed, http⟩
    exact routed ⟨operation, listed, http⟩

theorem extractJson_named_iff {parseJson : String → Option Value} {path : RepoRelativePath}
    {text : String} :
    (∀ discovery ∈ extractJson parseJson path text, Named discovery) ↔
      ∀ document ∈ parseJson text, HarmlessDocument path document := by
  unfold extractJson
  cases parseJson text with
  | none => simp
  | some document =>
      have schemaNamed (name : String) :
          Named (discovery .schema name 1) ↔ isBlank name = false := Iff.rfl
      simp only [Option.mem_def, Option.some.injEq, forall_eq', List.forall_mem_cons,
        schemaNamed]
      have opened : (∀ discovery ∈ (if (member "openapi" document).isSome = true then
            openapiDiscoveries document else []), Named discovery) ↔
          ((member "openapi" document).isSome = true →
            (∀ route ∈ openapiPaths document,
              (∃ operation ∈ members route.2, isHttpOperation operation.1 = true) →
                OneRoute 1 route.1.toList) ∧
            ∀ schema ∈ openapiSchemas document, isBlank schema.1 = false) := by
        split_ifs with isOpenapi
        · simp only [openapiDiscoveries, List.mem_append, or_imp, forall_and,
            List.forall_mem_map, schemaNamed, List.mem_flatMap, isOpenapi, forall_const]
          refine and_congr_left fun _ => ?_
          constructor
          · intro allNamed route listed
            exact (routeDiscoveries_named_iff route.1 route.2).mp fun discovery found =>
              allNamed discovery ⟨route, listed, found⟩
          · rintro routes discovery ⟨route, listed, found⟩
            exact (routeDiscoveries_named_iff route.1 route.2).mpr (routes route listed)
              discovery found
        · simp [isOpenapi]
      rw [opened]
      constructor
      · rintro ⟨name, rest⟩
        exact ⟨name, fun isOpenapi => (rest isOpenapi).1, fun isOpenapi => (rest isOpenapi).2⟩
      · rintro ⟨name, routes, schemas⟩
        exact ⟨name, fun isOpenapi => ⟨routes isOpenapi, schemas isOpenapi⟩⟩

/-! ### YAML -/

/-- A line that ends the name of an operation with a colon. -/
def namesOperation (trimmed : List Char) : Bool :=
  (yamlKey trimmed).any fun key => isHttpOperation (String.ofList key)

/-- An operation stands beneath no route, or beneath one that can be named. -/
def HarmlessYamlLine (before : List (List Char)) (line : List Char) : Prop :=
  (before.foldl yamlNext .start).inSection = .paths → namesOperation (trimLine line) = true →
    ∀ route ∈ (before.foldl yamlNext .start).currentRoute, OneRoute 1 route

theorem head?_trimLine_plain {line : List Char} {first : Char}
    (starts : (trimLine line).head? = some first) : isWhiteSpace first = false := by
  rw [head?_trimLine] at starts
  simpa [starts] using List.head?_dropWhile_not isWhiteSpace line

theorem unrooted_of_isHttpOperation {key : List Char}
    (http : isHttpOperation (String.ofList key) = true) : key.head? ≠ some '/' := by
  intro rooted
  have unrooted : ∀ operation ∈ httpOperations, operation.toList.head? ≠ some '/' := by decide
  obtain ⟨rest, rfl⟩ := List.head?_eq_some_iff.mp rooted
  refine unrooted _ (of_decide_eq_true http) ?_
  simp only [asciiLowercase, String.toList_ofList, List.map_cons, List.head?_cons]
  rfl

theorem namesOperation_section {trimmed : List Char} {next : YamlSection}
    (starts : sectionStart trimmed = some next) : namesOperation trimmed = false := by
  unfold sectionStart at starts
  split_ifs at starts with paths schemas components
  · rw [paths]
    decide
  · rw [schemas]
    decide
  · rw [components]
    decide

theorem yamlKey_notBlank {line key : List Char} (keyed : yamlKey (trimLine line) = some key)
    (nonempty : key ≠ []) : isBlank (String.ofList key) = false := by
  simp only [yamlKey, ite_eq_iff, Option.some.injEq, reduceCtorEq, and_false, or_false] at keyed
  obtain ⟨first, rest, split⟩ := List.exists_cons_of_ne_nil nonempty
  have starts : (trimLine line).head? = some first := by
    obtain ⟨others, whole⟩ := List.dropLast_prefix (trimLine line)
    rw [← whole, keyed.2, split]
    rfl
  rw [isBlank_ofList, split]
  exact words_cons_ne_nil rest (head?_trimLine_plain starts)

theorem yamlKeyDiscovery_named_iff {state : YamlState} {index : Nat} {line key : List Char}
    (keyed : yamlKey (trimLine line) = some key) :
    (∀ discovery ∈ yamlKeyDiscovery state index key, Named discovery) ↔
      (state.inSection = .paths → isHttpOperation (String.ofList key) = true →
        ∀ route ∈ state.currentRoute, OneRoute 1 route) := by
  unfold yamlKeyDiscovery
  split_ifs with isRoute isOperation isSchema
  · have unrooted (http : isHttpOperation (String.ofList key) = true) : False :=
      unrooted_of_isHttpOperation http isRoute.2
    simp only [Option.mem_def, reduceCtorEq, false_implies, implies_true, true_iff]
    exact fun _ http => (unrooted http).elim
  · obtain ⟨route, current⟩ := Option.isSome_iff_exists.mp isOperation.2.2
    simp [current, isOperation.1, isOperation.2.1, Named]
  · simp [isSchema.1, discovery, Named, yamlKey_notBlank keyed isSchema.2]
  · simp only [Option.mem_def, reduceCtorEq, false_implies, implies_true, true_iff]
    intro inPaths http route current
    exact absurd ⟨inPaths, http, by simp [current]⟩ isOperation

theorem yamlDiscovery_named_iff (state : YamlState) (index : Nat) (line : List Char) :
    (∀ discovery ∈ yamlDiscovery state index line, Named discovery) ↔
      (state.inSection = .paths → namesOperation (trimLine line) = true →
        ∀ route ∈ state.currentRoute, OneRoute 1 route) := by
  unfold yamlDiscovery
  cases starts : sectionStart (trimLine line) with
  | some next => simp [namesOperation_section starts]
  | none =>
      cases keyed : yamlKey (trimLine line) with
      | none => simp [namesOperation, keyed]
      | some key => simpa [namesOperation, keyed] using yamlKeyDiscovery_named_iff keyed

theorem yamlDiscoveries_named_iff (state : YamlState) (index : Nat) (text : List (List Char)) :
    (∀ discovery ∈ yamlDiscoveries state index text, Named discovery) ↔
      Everywhere (fun before line =>
        (before.foldl yamlNext state).inSection = .paths →
          namesOperation (trimLine line) = true →
          ∀ route ∈ (before.foldl yamlNext state).currentRoute, OneRoute 1 route) text := by
  induction text generalizing state index with
  | nil => simp [yamlDiscoveries]
  | cons line rest ih =>
      simp only [yamlDiscoveries, List.mem_append, or_imp, forall_and, everywhere_cons,
        List.foldl_nil, List.foldl_cons, Option.mem_toList]
      exact and_congr (yamlDiscovery_named_iff state index line) (ih _ _)

/-! ### Protocol buffers -/

theorem extractProto_named (classes : CharacterClasses) (text : String) :
    ∀ discovery ∈ extractProto classes text, Named discovery := by
  simp only [extractProto, protoLine, List.mem_flatMap, List.mem_filterMap,
    Option.map_eq_some_iff, Option.bind_eq_some_iff, Prod.exists]
  rintro discovery ⟨line, index, -, start, kind, listed, name, ⟨tail, -, identified⟩, rfl⟩
  have named := isName_of_identifier identified
  have kinds : ∀ pattern ∈ protoPatterns, pattern.2 = .schema ∨ pattern.2 = .api := by decide
  rcases kinds _ listed with isSchema | isApi
  · simp only at isSchema
    simp [Named, foundIn, isSchema, named.notBlank]
  · simp only at isApi
    simp only [Named, foundIn, isApi, String.toList_ofList]
    exact oneWord_of_singleton named.words

/-! ### Sources -/

section Sources

variable (classes : CharacterClasses) (parseJson : String → Option Value)

/-- A text in which all that its language's extractor finds has a name. -/
def HarmlessText (source : SourceFile) : Prop :=
  match source.language with
  | .rust | .typeScriptJavaScript | .swift | .kotlin | .java =>
      HarmlessCode classes source.language false (lines source.text.toList)
  | .json => ∀ document ∈ parseJson source.text, HarmlessDocument source.path document
  | .yaml => isBlank (String.ofList (fileStem source.path.text)) = false ∧
      Everywhere HarmlessYamlLine (lines source.text.toList)
  | .proto | .xml => True

/-- A source whose directory and discoveries can be named. -/
def Harmless (source : SourceFile) : Prop :=
  (∀ directory ∈ modulePath source.path.text, isBlank directory = false) ∧
    HarmlessText classes parseJson source

variable {classes parseJson}
  {snapshotGeneration : RepositoryIdentity → String → List RepoRelativePath → ScanCoverage →
    List SourceFile → List SkippedFile → String}

theorem extract_named_iff (source : SourceFile) :
    (∀ discovery ∈ extract classes parseJson source.language source.path source.text,
      Named discovery) ↔ HarmlessText classes parseJson source := by
  have code (language : SourceLanguage) :
      (∀ discovery ∈ extractCode classes language source.text, Named discovery) ↔
        HarmlessCode classes language false (lines source.text.toList) :=
    codeDiscoveries_named_iff 0 fun _ member => newline_notMem_lines member
  unfold extract HarmlessText
  cases source.language with
  | rust => exact code .rust
  | typeScriptJavaScript => exact code .typeScriptJavaScript
  | swift => exact code .swift
  | kotlin => exact code .kotlin
  | java => exact code .java
  | json => exact extractJson_named_iff
  | yaml =>
      simp only [extractYaml, List.forall_mem_cons]
      exact and_congr Iff.rfl (yamlDiscoveries_named_iff .start 0 _)
  | proto => exact iff_of_true (extractProto_named classes source.text) trivial
  | xml => simp

theorem moduleName_notBlank {path : String}
    (named : ∀ directory ∈ modulePath path, isBlank directory = false) :
    isBlank (moduleName path) = false := by
  unfold moduleName
  cases within : modulePath path with
  | none => decide
  | some directory => exact named directory within

theorem scanSource_succeeds_iff {repository : RepositoryIdentity} {source : SourceFile}
    (validRepository : repository.validate = .ok ())
    (validPath : validateRepoRelativePath source.path.text = .ok ())
    (artifacts : List SnapshotArtifact) :
    (∃ added, scanSource (sourceRules classes parseJson snapshotGeneration) repository artifacts
      source = .ok added) ↔ Harmless classes parseJson source := by
  have shown := (validateRepoRelativePath_eq_ok.mp validPath).1
  have located : (ArtifactLocator.file source.path).validate = .ok () := by
    simp [ArtifactLocator.validate, ArtifactLocator.path, validPath]
  obtain ⟨entry, built⟩ :=
    (artifact_succeeds_iff validRepository _ source.path.text).mpr ⟨located, shown⟩
  have directories (artifacts : List SnapshotArtifact) :
      (∃ added, scanModule repository source artifacts = .ok added) ↔
        ∀ directory ∈ modulePath source.path.text, isBlank directory = false := by
    rw [scanModule_succeeds_iff validRepository]
    exact forall₂_congr fun directory within => validate_directory validPath within
  have discoveries (named : ∀ directory ∈ modulePath source.path.text,
      isBlank directory = false) (artifacts : List SnapshotArtifact) :
      (∃ added, (extract classes parseJson source.language source.path source.text).foldlM
        (scanDiscovery (sourceRules classes parseJson snapshotGeneration) repository source)
        artifacts = .ok added) ↔ HarmlessText classes parseJson source := by
    rw [scanDiscoveries_succeed_iff validRepository, ← extract_named_iff]
    exact forall₂_congr fun discovery _ =>
      accepted_iff validPath (moduleName_notBlank named) discovery
  simp only [scanSource, Result.bind_eq_ok]
  constructor
  · rintro ⟨added, entry, -, next, scanned, rested⟩
    have named := (directories _).mp ⟨next, scanned⟩
    exact ⟨named, (discoveries named next).mp ⟨added, rested⟩⟩
  · rintro ⟨named, harmless⟩
    obtain ⟨next, scanned⟩ := (directories _).mpr named
    obtain ⟨added, rested⟩ := (discoveries named next).mpr harmless
    exact ⟨added, entry, built, next, scanned, rested⟩

theorem parseSources_succeeds_iff {repository : RepositoryIdentity} {sources : List SourceFile}
    (validRepository : repository.validate = .ok ())
    (validPaths : ∀ source ∈ sources, validateRepoRelativePath source.path.text = .ok ())
    (artifacts : List SnapshotArtifact) :
    (∃ added, parseSources (sourceRules classes parseJson snapshotGeneration) repository
      artifacts none sources = .ok (added, [])) ↔
      ∀ source ∈ sources, Harmless classes parseJson source := by
  induction sources generalizing artifacts with
  | nil => simp [parseSources]
  | cons source rest ih =>
      have step : (∃ added, scanSource (sourceRules classes parseJson snapshotGeneration)
          repository artifacts source = .ok added) ↔ Harmless classes parseJson source :=
        scanSource_succeeds_iff validRepository (validPaths source (by simp)) artifacts
      have restValid : ∀ source ∈ rest, validateRepoRelativePath source.path.text = .ok () :=
        fun source member => validPaths source (by simp [member])
      simp only [parseSources, reduceCtorEq, if_false, Option.map_none, Result.bind_eq_ok,
        List.forall_mem_cons]
      rw [← step]
      constructor
      · rintro ⟨added, next, scanned, rested⟩
        exact ⟨⟨next, scanned⟩, (ih restValid next).mp ⟨added, rested⟩⟩
      · rintro ⟨⟨next, scanned⟩, harmless⟩
        obtain ⟨added, rested⟩ := (ih restValid next).mpr harmless
        exact ⟨added, next, scanned, rested⟩

theorem parseSources_rest {rules : ScanRules} {repository : RepositoryIdentity}
    {sources rest : List SourceFile} {artifacts added : List SnapshotArtifact}
    (parsed : parseSources rules repository artifacts none sources = .ok (added, rest)) :
    rest = [] := by
  induction sources generalizing artifacts with
  | nil => simp_all [parseSources]
  | cons source others ih =>
      simp only [parseSources, reduceCtorEq, if_false, Option.map_none,
        Result.bind_eq_ok] at parsed
      obtain ⟨next, -, parsed⟩ := parsed
      exact ih parsed

/-- One source is scanned, and so is a plan whose files can be read, exactly
when what was read is harmless. -/
theorem scan_succeeds_iff_harmless {repository : RepositoryIdentity}
    (validRepository : repository.validate = .ok ()) :
    (∀ (source : SourceFile) (artifacts : List SnapshotArtifact),
      validateRepoRelativePath source.path.text = .ok () →
      ((∃ added, scanSource (sourceRules classes parseJson snapshotGeneration) repository
        artifacts source = .ok added) ↔ Harmless classes parseJson source)) ∧
    ∀ (limits : RepositoryScannerLimits) (checkout : Checkout) (plan : RepositoryScanPlan)
      (sources : List SourceFile),
      plan.repositoryId = repository.repositoryId →
      (∀ path ∈ plan.paths, validateRepoRelativePath path.text = .ok ()) →
      readSources limits checkout plan.paths = .ok sources →
      ((∃ outcome, scan limits (sourceRules classes parseJson snapshotGeneration) repository
        (some checkout) plan = .ok outcome) ↔
        ∀ source ∈ sources, Harmless classes parseJson source) := by
  refine ⟨fun source artifacts validPath =>
    scanSource_succeeds_iff validRepository validPath artifacts, ?_⟩
  intro limits checkout plan sources owned validPaths read
  simp only [readSources, Result.bind_eq_ok, Result.pure_eq_ok] at read
  obtain ⟨state, read, rfl⟩ := read
  obtain ⟨sources, -, rfl, unlimited, covered, -, ordered⟩ := readPlan_bounded read
  have sorted := (byPath_sources ordered).insertionSort_eq
  have validSources : ∀ source ∈ state.sources,
      validateRepoRelativePath source.path.text = .ok () := fun source member =>
    validPaths _ (ordered.subset (List.mem_map_of_mem member))
  rw [← parseSources_succeeds_iff validRepository validSources []]
  constructor
  · rintro ⟨outcome, scanned⟩
    simp only [scan, scanBefore, Result.bind_eq_ok, Result.exists_unit] at scanned
    obtain ⟨-, ⟨-, -, final, rereads, snapshot, built, -⟩, -⟩ := scanned
    obtain rfl : state = final := Except.ok.inj (read.symm.trans rereads)
    simp only [snapshotOf, unlimited, sorted, Result.bind_eq_ok, Prod.exists] at built
    obtain ⟨added, rest, parsed, -⟩ := built
    exact ⟨added, by rw [parseSources_rest parsed] at parsed; exact parsed⟩
  · rintro ⟨added, parsed⟩
    have inspected : ¬ ∀ path, path ∉ state.covered := by
      rw [← List.eq_nil_iff_forall_not_mem, covered]
      simpa using plan.nonempty
    obtain ⟨snapshot, built⟩ : ∃ snapshot, snapshotOf
        (sourceRules classes parseJson snapshotGeneration) repository checkout plan state =
          .ok (some snapshot) := by
      simp only [snapshotOf, unlimited, Option.map_none, sorted, parsed, Result.bind_eq_ok]
      simp [inspected]
    have before : scanBefore limits (sourceRules classes parseJson snapshotGeneration) repository
        (some checkout) plan none = .ok (some (.available snapshot)) :=
      Result.seq_eq_ok.mpr ⟨validRepository, Result.seq_eq_ok.mpr
        ⟨Result.require_eq_ok.mpr owned, Result.bind_eq_ok.mpr ⟨state, read,
          Result.bind_eq_ok.mpr ⟨_, built, rfl⟩⟩⟩⟩
    exact ⟨.available snapshot, Result.bind_eq_ok.mpr ⟨_, before, rfl⟩⟩

end Sources

/-! ### A test without a title -/

theorem plain_of_isAlphanum {character : Char} (alphanumeric : character.isAlphanum = true) :
    isWhiteSpace character = false := by
  have ranges : (65 ≤ character.toNat ∧ character.toNat ≤ 90 ∨ 97 ≤ character.toNat ∧
      character.toNat ≤ 122) ∨ 48 ≤ character.toNat ∧ character.toNat ≤ 57 := by
    simpa [Char.isAlphanum, Char.isAlpha, Char.isUpper, Char.isLower, Char.isDigit,
      UInt32.le_iff_toNat_le] using alphanumeric
  simp only [isWhiteSpace, Bool.or_eq_false_iff, Bool.and_eq_false_iff, decide_eq_false_iff_not,
    beq_eq_false_iff_ne]
  omega

def asciiClasses : CharacterClasses where
  isAlphanumeric := Char.isAlphanum
  isAlphabetic := Char.isAlpha
  alphanumericPlain _ := plain_of_isAlphanum

def asciiRules : ScanRules :=
  sourceRules asciiClasses (fun _ => none) fun _ _ _ _ _ _ => "snap"

def webRepository : RepositoryIdentity :=
  ⟨⟨"web"⟩, "Web"⟩

def webPlan : RepositoryScanPlan where
  repositoryId := ⟨"web"⟩
  paths := [⟨"src/lib.rs"⟩, ⟨"web/parser.test.ts"⟩]
  inOrder := by decide +kernel
  nonempty := by simp

def webText (path : RepoRelativePath) : String :=
  if path.text = "src/lib.rs" then "pub fn run() \x7b\x7d\n" else "it('', () => \x7b\n"

def webCheckout : Checkout where
  headTreeOid := "tree"
  entry path := .file ⟨true, .ok true, 20, .ok (.text (webText path)), .trackedHead⟩

def webLimits : RepositoryScannerLimits :=
  ⟨10000, 1024 * 1024, 32 * 1024 * 1024⟩

def webSources : List SourceFile :=
  [⟨⟨"src/lib.rs"⟩, .rust, .trackedHead, "pub fn run() \x7b\x7d\n"⟩,
    ⟨⟨"web/parser.test.ts"⟩, .typeScriptJavaScript, .trackedHead, "it('', () => \x7b\n"⟩]

theorem webSources_read :
    readSources webLimits webCheckout webPlan.paths = .ok webSources := by
  decide +kernel

/-- A test without a title fails its file, as an assignment that continues a
Java line does, and with it the scan of every other file. -/
theorem untitled_test_fails_scan :
    scanSource asciiRules webRepository [] ⟨⟨"web/parser.test.ts"⟩, .typeScriptJavaScript,
        .trackedHead, "it('', () => \x7b\n"⟩ =
      .error (invalid "engineering_artifact.display_name must not be empty") ∧
    scanSource asciiRules webRepository [] ⟨⟨"web/Parser.java"⟩, .java, .trackedHead,
        "String value\n    = parse(input);\n"⟩ =
      .error (invalid "artifact_locator.signature must not be empty") ∧
    readSources webLimits webCheckout webPlan.paths = .ok webSources ∧
    scan webLimits asciiRules webRepository (some webCheckout) webPlan =
      .error (invalid "engineering_artifact.display_name must not be empty") := by
  refine ⟨?_, ?_, webSources_read, ?_⟩
  · decide +kernel
  · decide +kernel
  · decide +kernel

/-- The Rust file is harmless, the two files together are not. -/
theorem scan_succeeds_iff_harmless_web :
    Harmless asciiClasses (fun _ => none)
        ⟨⟨"src/lib.rs"⟩, .rust, .trackedHead, "pub fn run() \x7b\x7d\n"⟩ ∧
      ¬ ∀ source ∈ webSources, Harmless asciiClasses (fun _ => none) source := by
  have validRepository : webRepository.validate = .ok () := by decide +kernel
  have validPaths : ∀ path ∈ webPlan.paths, validateRepoRelativePath path.text = .ok () := by
    decide +kernel
  obtain ⟨scansSource, scansPlan⟩ := @scan_succeeds_iff_harmless asciiClasses (fun _ => none)
    (fun _ _ _ _ _ _ => "snap") webRepository validRepository
  constructor
  · refine (scansSource _ [] (by decide +kernel)).mp ?_
    have scanned : (scanSource asciiRules webRepository [] ⟨⟨"src/lib.rs"⟩, .rust, .trackedHead,
        "pub fn run() \x7b\x7d\n"⟩).isOk = true := by decide +kernel
    revert scanned
    cases found : scanSource asciiRules webRepository [] _ with
    | error error => simp [Result.isOk]
    | ok added => exact fun _ => ⟨added, found⟩
  · intro harmless
    obtain ⟨outcome, scanned⟩ :=
      (scansPlan webLimits webCheckout webPlan webSources rfl validPaths webSources_read).mpr
        harmless
    have failed : scan webLimits asciiRules webRepository (some webCheckout) webPlan =
        .error (invalid "engineering_artifact.display_name must not be empty") := by
      decide +kernel
    exact absurd (failed.symm.trans scanned) (by simp)

end SharedContext.EngineeringGraph
