import Mathlib.Data.List.Sort
import SharedContext.Domain.Artifacts

/-!
# Scanning a repository

A scan reads the planned paths of a checkout and parses what it read into
artifacts, until its budget is spent.  What it did not reach is recorded as
unfinished, so that nobody mistakes it for absent.
-/

namespace SharedContext.EngineeringGraph

inductive SourceLanguage
  | rust
  | typeScriptJavaScript
  | swift
  | kotlin
  | java
  | json
  | yaml
  | proto
  | xml
  deriving DecidableEq

inductive ArtifactSourceState
  | trackedHead
  | trackedWorkingModification
  deriving DecidableEq

structure ArtifactObservation where
  path : RepoRelativePath
  line : Option Nat
  language : SourceLanguage
  sourceState : ArtifactSourceState
  deriving DecidableEq

structure SnapshotArtifact where
  artifact : EngineeringArtifact
  observations : List ArtifactObservation
  deriving DecidableEq

inductive SkippedFileReason
  | missing
  | untracked
  | ignoredDirectory
  | generated
  | unsupportedLanguage
  | symlink
  | escapesRepository
  | oversized
  | binary
  | fileLimit
  | totalByteLimit
  deriving DecidableEq

structure SkippedFile where
  path : RepoRelativePath
  reason : SkippedFileReason
  deriving DecidableEq

/-! ### Paths -/

def asciiLowercase (path : String) : List Char :=
  path.toList.map Char.toLower

def languageSuffixes : List (String × SourceLanguage) :=
  [(".ts", .typeScriptJavaScript), (".tsx", .typeScriptJavaScript),
    (".js", .typeScriptJavaScript), (".jsx", .typeScriptJavaScript),
    (".mjs", .typeScriptJavaScript), (".cjs", .typeScriptJavaScript), (".rs", .rust),
    (".swift", .swift), (".kt", .kotlin), (".kts", .kotlin), (".java", .java), (".json", .json),
    (".yaml", .yaml), (".yml", .yaml), (".proto", .proto), (".xml", .xml)]

def languageForPath (path : String) : Option SourceLanguage :=
  languageSuffixes.findSome? fun (suffix, language) =>
    if suffix.toList <:+ asciiLowercase path then some language else none

def languageName : SourceLanguage → String
  | .rust => "rust"
  | .typeScriptJavaScript => "typescript-javascript"
  | .swift => "swift"
  | .kotlin => "kotlin"
  | .java => "java"
  | .json => "json"
  | .yaml => "yaml"
  | .proto => "proto"
  | .xml => "xml"

def ignoredComponents : List String :=
  [".git", "target", "node_modules", "vendor", "vendors", "dist", "build", "pods", "deriveddata",
    ".env", ".secrets", "secrets", ".credentials", "credentials", ".ssh", ".aws"]

def isIgnoredPath (path : String) : Bool :=
  ((asciiLowercase path).splitOn '/').any fun component =>
    ignoredComponents.any fun ignored => ignored.toList = component

def isGeneratedPath (path : String) : Bool :=
  let lower := asciiLowercase path
  ".generated.".toList <:+: lower || ".min.js".toList <:+ lower ||
    "package-lock.json".toList <:+ lower || "pnpm-lock.yaml".toList <:+ lower

/-- The directory of a path, as characters; a path without one is in the root. -/
def parentChars (path : String) : List Char :=
  ((path.toList.reverse.dropWhile fun character => character ≠ '/').drop 1).reverse

def modulePath (path : String) : Option String :=
  if parentChars path = [] then none else some (String.ofList (parentChars path))

def moduleName (path : String) : String :=
  (modulePath path).getD "root"

/-! ### What a scan finds -/

inductive SourceContent
  | binary
  | text (text : String)

/-- A tracked or untracked file; following it may fail, and so may reading it. -/
structure FileFacts where
  tracked : Bool
  staysInside : Result Bool
  length : Nat
  content : Result SourceContent
  sourceState : ArtifactSourceState

inductive TreeEntry
  | missing
  | uninspectable (error : Error)
  | symlink
  | file (facts : FileFacts)

structure Checkout where
  headTreeOid : String
  entry : RepoRelativePath → TreeEntry

structure Discovery where
  kind : ArtifactKind
  name : String
  line : Nat
  source : String

structure SourceFile where
  path : RepoRelativePath
  language : SourceLanguage
  sourceState : ArtifactSourceState
  text : String
  deriving DecidableEq

inductive ScanCoverage
  | complete
  | incomplete (covered unfinished : List RepoRelativePath)
  deriving DecidableEq

/-- The parsers of the languages, and the digest of a snapshot. -/
structure ScanRules where
  extract : SourceLanguage → RepoRelativePath → String → List Discovery
  normalizeSignature : String → String
  apiProtocol : String → String
  apiOperation : String → String
  normalizeApiKey : String → String
  schemaVersion : String → String
  snapshotGeneration : RepositoryIdentity → String → List RepoRelativePath → ScanCoverage →
    List SourceFile → List SkippedFile → String

structure RepositoryScannerLimits where
  maxFiles : Nat
  maxFileBytes : Nat
  maxTotalBytes : Nat

/-- Paths to inspect, each once and in order. -/
structure RepositoryScanPlan where
  repositoryId : RepositoryId
  paths : List RepoRelativePath
  inOrder : (paths.map RepoRelativePath.text).Pairwise (· < ·)
  nonempty : paths ≠ []

theorem RepositoryScanPlan.nodup (plan : RepositoryScanPlan) : plan.paths.Nodup := by
  have distinct : (plan.paths.map RepoRelativePath.text).Nodup :=
    plan.inOrder.imp fun before same => by
      rw [same] at before
      exact absurd before (String.lt_irrefl _)
  exact distinct.of_map _

/-- Deterministic derived snapshot of one available repository. -/
structure RepositorySnapshot where
  repositoryId : RepositoryId
  headTreeOid : String
  generation : String
  plannedPaths : List RepoRelativePath
  coverage : ScanCoverage
  artifacts : List SnapshotArtifact
  scannedFiles : Nat
  scannedBytes : Nat
  skippedFiles : List SkippedFile
  deriving DecidableEq

inductive RepositoryScanOutcome
  | available (snapshot : RepositorySnapshot)
  | unavailable (repositoryId : RepositoryId) (reason : String)
  deriving DecidableEq

/-! ### Coverage -/

namespace ScanCoverage

def coversPath : ScanCoverage → String → Bool
  | complete, _ => true
  | incomplete covered _, path => covered.any fun entry => entry.text = path

/-- A directory is covered as soon as something beneath it was read. -/
def coversDirectory : ScanCoverage → String → Bool
  | complete, _ => true
  | incomplete covered _, path =>
      covered.any fun entry => decide (path.toList ++ ['/'] <+: entry.text.toList)

end ScanCoverage

/-! ### Reading -/

section Reading

variable (limits : RepositoryScannerLimits) (checkout : Checkout)

/-- The sources read and the paths covered so far; the checks that the budget
still allows, where none is a scan without a deadline. -/
structure ReadState where
  sources : List SourceFile
  skippedFiles : List SkippedFile
  covered : List RepoRelativePath
  unfinished : List RepoRelativePath
  scannedBytes : Nat
  checks : Option Nat

def ReadState.start (checks : Option Nat) : ReadState :=
  ⟨[], [], [], [], 0, checks⟩

inductive Inspection
  | source (source : SourceFile)
  | skipped (reason : SkippedFileReason)

/-- Read one path, or say why it is skipped. -/
def inspectPath (state : ReadState) (path : RepoRelativePath) : Result Inspection :=
  if limits.maxFiles ≤ state.sources.length then .ok (.skipped .fileLimit)
  else
    match languageForPath path.text with
    | none =>
        .ok (.skipped (if isIgnoredPath path.text then .ignoredDirectory
          else if isGeneratedPath path.text then .generated else .unsupportedLanguage))
    | some language =>
        if isIgnoredPath path.text then .ok (.skipped .ignoredDirectory)
        else if isGeneratedPath path.text then .ok (.skipped .generated)
        else
          match checkout.entry path with
          | .missing => .ok (.skipped .missing)
          | .uninspectable error => .error error
          | .symlink => .ok (.skipped .symlink)
          | .file facts =>
              if !facts.tracked then .ok (.skipped .untracked)
              else do
                let staysInside ← facts.staysInside
                if !staysInside then pure (.skipped .escapesRepository)
                else if limits.maxFileBytes < facts.length then pure (.skipped .oversized)
                else if limits.maxTotalBytes < state.scannedBytes + facts.length then
                  pure (.skipped .totalByteLimit)
                else
                  match ← facts.content with
                  | .binary => pure (.skipped .binary)
                  | .text text => pure (.source ⟨path, language, facts.sourceState, text⟩)

def ReadState.add (state : ReadState) (path : RepoRelativePath) (found : Inspection) : ReadState :=
  match found with
  | .source source =>
      { state with
        covered := state.covered ++ [path]
        sources := state.sources ++ [source]
        scannedBytes := state.scannedBytes + source.text.utf8ByteSize }
  | .skipped reason =>
      { state with
        covered := state.covered ++ [path]
        skippedFiles := state.skippedFiles ++ [⟨path, reason⟩] }

def ReadState.spend (state : ReadState) : ReadState :=
  { state with checks := state.checks.map fun left => left - 1 }

/-- One planned path; the budget is checked before it is inspected. -/
def readPath (state : ReadState) (path : RepoRelativePath) : Result ReadState :=
  if state.checks = some 0 then .ok { state with unfinished := state.unfinished ++ [path] }
  else do
    let found ← inspectPath limits checkout state path
    pure (state.add path found).spend

end Reading

/-! ### Parsing -/

section Parsing

variable (rules : ScanRules) (repository : RepositoryIdentity)

def artifact (locator : ArtifactLocator) (displayName : String) : Result EngineeringArtifact := do
  locator.validate
  let artifact : EngineeringArtifact :=
    ⟨repository, ⟨repository.repositoryId, locator⟩, displayName⟩
  artifact.validate
  pure artifact

def observation (source : SourceFile) (line : Option Nat) : ArtifactObservation :=
  ⟨source.path, line, source.language, source.sourceState⟩

/-- Another observation of an artifact, which counts once. -/
def SnapshotArtifact.observe (found : SnapshotArtifact) (seen : ArtifactObservation) :
    SnapshotArtifact :=
  if seen ∈ found.observations then found
  else { found with observations := found.observations ++ [seen] }

/-- Record an observation under the key of its artifact. -/
def insertArtifact (artifacts : List SnapshotArtifact) (entry : EngineeringArtifact)
    (seen : ArtifactObservation) : List SnapshotArtifact :=
  match artifacts with
  | [] => [⟨entry, [seen]⟩]
  | found :: rest =>
      if found.artifact.artifactKey = entry.artifactKey then found.observe seen :: rest
      else found :: insertArtifact rest entry seen

/-- The locator of a discovery; the other kinds are no artifacts of a source. -/
def discoveryLocator (source : SourceFile) (discovery : Discovery) : Option ArtifactLocator :=
  let moduleName := moduleName source.path.text
  match discovery.kind with
  | .symbol => some (.symbol source.path (languageName source.language) moduleName none
      discovery.name (rules.normalizeSignature discovery.source))
  | .test => some (.test source.path (moduleName ++ "::" ++ discovery.name))
  | .api => some (.api source.path (rules.apiProtocol discovery.source)
      (rules.apiOperation discovery.source) (rules.normalizeApiKey discovery.name))
  | .schema => some (.schema source.path moduleName (rules.schemaVersion discovery.source)
      (moduleName ++ "::" ++ discovery.name))
  | .module | .file => none

def scanDiscovery (source : SourceFile) (artifacts : List SnapshotArtifact)
    (discovery : Discovery) : Result (List SnapshotArtifact) :=
  match discoveryLocator rules source discovery with
  | none => .ok artifacts
  | some locator => do
      let entry ← artifact repository locator discovery.name
      pure (insertArtifact artifacts entry (observation source (some discovery.line)))

def scanModule (source : SourceFile) (artifacts : List SnapshotArtifact) :
    Result (List SnapshotArtifact) :=
  match modulePath source.path.text with
  | none => .ok artifacts
  | some directory => do
      let entry ← artifact repository (.module ⟨directory⟩) (moduleName source.path.text)
      pure (insertArtifact artifacts entry (observation source none))

/-- The artifacts of one source: itself, its directory, and what its parser finds. -/
def scanSource (artifacts : List SnapshotArtifact) (source : SourceFile) :
    Result (List SnapshotArtifact) := do
  let entry ← artifact repository (.file source.path) source.path.text
  let artifacts := insertArtifact artifacts entry (observation source none)
  let artifacts ← scanModule repository source artifacts
  (rules.extract source.language source.path source.text).foldlM
    (scanDiscovery rules repository source) artifacts

/-- Parse the sources in order while the budget lasts; what is left is returned. -/
def parseSources (artifacts : List SnapshotArtifact) (checks : Option Nat) :
    List SourceFile → Result (List SnapshotArtifact × List SourceFile)
  | [] => .ok (artifacts, [])
  | source :: rest =>
      if checks = some 0 then .ok (artifacts, source :: rest)
      else do
        let artifacts ← scanSource rules repository artifacts source
        parseSources artifacts (checks.map fun left => left - 1) rest

end Parsing

/-! ### The scan -/

section Scan

variable (limits : RepositoryScannerLimits) (rules : ScanRules) (repository : RepositoryIdentity)

abbrev byPath (first second : RepoRelativePath) : Prop :=
  first.text ≤ second.text

/-- Parse what was read and record where the evidence ends. -/
def snapshotOf (checkout : Checkout) (plan : RepositoryScanPlan) (state : ReadState) :
    Result (Option RepositorySnapshot) := do
  let sources := state.sources.insertionSort fun first second => byPath first.path second.path
  let skippedFiles := state.skippedFiles.insertionSort fun first second =>
    byPath first.path second.path
  let (artifacts, unparsed) ← parseSources rules repository [] state.checks sources
  let parsed := sources.take (sources.length - unparsed.length)
  let covered := state.covered.filter fun entry => decide (entry ∉ unparsed.map SourceFile.path)
  let unfinished :=
    if unparsed = [] then state.unfinished
    else (state.unfinished ++ unparsed.map SourceFile.path).insertionSort byPath
  if covered = [] then pure none
  else
    let coverage := if unfinished = [] then .complete else .incomplete covered unfinished
    pure (some {
      repositoryId := repository.repositoryId
      headTreeOid := checkout.headTreeOid
      generation := rules.snapshotGeneration repository checkout.headTreeOid plan.paths coverage
        parsed skippedFiles
      plannedPaths := plan.paths
      coverage := coverage
      artifacts := artifacts
      scannedFiles := parsed.length
      scannedBytes := (parsed.map fun source => source.text.utf8ByteSize).sum
      skippedFiles := skippedFiles })

/-- Scan the plan under a budget of as many checks; `none` when nothing was inspected. -/
def scanBefore (checkout : Option Checkout) (plan : RepositoryScanPlan) (checks : Option Nat) :
    Result (Option RepositoryScanOutcome) := do
  repository.validate
  Result.require (plan.repositoryId = repository.repositoryId)
    (invalid "Repository ScanPlan must belong to the scanned Repository")
  match checkout with
  | none =>
      pure (some (.unavailable repository.repositoryId "Repository checkout is unavailable"))
  | some checkout =>
      let state ← plan.paths.foldlM (readPath limits checkout) (ReadState.start checks)
      let snapshot ← snapshotOf rules repository checkout plan state
      pure (snapshot.map .available)

def scan (checkout : Option Checkout) (plan : RepositoryScanPlan) :
    Result RepositoryScanOutcome := do
  match ← scanBefore limits rules repository checkout plan none with
  | some outcome => pure outcome
  | none => .error ⟨.invariantViolation, "an unbudgeted Repository scan cannot be abandoned"⟩

end Scan

end SharedContext.EngineeringGraph
