import SharedContext.Library.Utf8
import SharedContext.LogService.Config
import SharedContext.LogService.HookDiagnostics
import SharedContext.LogSync.CivilDate

/-!
# What the synchroniser accepts

The synchroniser checks its limits, the remote and every batch again, and files
a batch under the email of its target and the day of its first event.
-/

namespace SharedContext.LogSync

open LogService (Config BatchManifest StreamBinding saturateU64 isControl isAbsolutePath
  containsText stripPrefix splitOnce)

def mib : Nat := 1024 * 1024
def defaultDeadlineSeconds : Nat := 60
def defaultOutputLimit : Nat := 64 * 1024
def u8Max : Nat := 255

/-! ### Limits -/

structure SyncOptions where
  deadlineSeconds : Nat
  maxNewPayloadBytes : Nat
  shardMaxBytes : Nat
  shardMaxFiles : Nat
  localBudgetBytes : Nat
  minFreeDiskBytes : Nat
  cacheMaxAgeSeconds : Nat
  maxRetries : Nat
  outputLimit : Nat
  deriving DecidableEq, Repr

def SyncOptions.fromConfig (config : Config) : SyncOptions :=
  { deadlineSeconds := min config.sync.timeoutSeconds 60
    maxNewPayloadBytes := saturateU64 (config.sync.maxNewPayloadMib * mib)
    shardMaxBytes := saturateU64 (config.storage.shardMaxMib * mib)
    shardMaxFiles := config.storage.shardMaxFiles
    localBudgetBytes := saturateU64 (config.storage.localBudgetMib * mib)
    minFreeDiskBytes := saturateU64 (config.storage.minFreeDiskMib * mib)
    cacheMaxAgeSeconds := saturateU64 (config.storage.cacheMaxAgeDays * (24 * 60 * 60))
    maxRetries := if config.sync.maxRetryCount ≤ u8Max then config.sync.maxRetryCount else u8Max
    outputLimit := defaultOutputLimit }

def validateOptions (options : SyncOptions) : Result Unit :=
  if options.deadlineSeconds = 0 ∨ defaultDeadlineSeconds < options.deadlineSeconds ∨
      options.maxNewPayloadBytes = 0 ∨ options.shardMaxBytes = 0 ∨ options.shardMaxFiles < 2 ∨
      options.outputLimit = 0 then
    .error ⟨.invalidRoot, "invalid synchronization limits"⟩
  else .ok ()

/-! ### The remote -/

/-- An address of the form user@host:path. -/
def isScpLike (remote : List Char) : Bool :=
  !containsText "://".toList remote &&
    match splitOnce ':' remote with
    | some (host, path) => host ≠ [] && path ≠ [] && host.contains '@'
    | none => false

def isFileUrl (lower : List Char) : Bool :=
  match stripPrefix "file://".toList lower with
  | some path => isAbsolutePath path && !containsText "..".toList path
  | none => false

def isLocalPath (remote : List Char) : Bool :=
  isAbsolutePath remote && !(remote.splitOn '/').contains "..".toList

def validateRemote (remote : String) : Result Unit :=
  let characters := remote.toList
  let lower := characters.map Char.toLower
  let validScheme := "https://".toList.isPrefixOf lower || "ssh://".toList.isPrefixOf lower
  if characters.head? = some '-' ∨ "ext::".toList.isPrefixOf lower ∨
      characters.any isControl ∨
      !(validScheme || isScpLike characters || isFileUrl lower || isLocalPath characters) then
    .error ⟨.invalidRemote, "remote must be an HTTPS, SSH, or SCP-like Git URL"⟩
  else .ok ()

/-! ### Batches -/

structure ReadyBatch where
  manifest : BatchManifest
  manifestBytes : Nat
  deriving DecidableEq, Repr

def isSafeIdentity (value : String) : Bool :=
  value ≠ "" && value.utf8ByteSize ≤ 128 &&
    value.toList.all fun character =>
      character.isAlphanum || character = '-' || character = '_'

def isHexDigit (character : Char) : Bool :=
  character.isDigit || ('a' ≤ character && character ≤ 'f') ||
    ('A' ≤ character && character ≤ 'F')

def assignedEmail (manifest : BatchManifest) : Result String :=
  match manifest.stream.email with
  | some email => .ok email
  | none => .error ⟨.invalidBatch, "sealed batch has not been assigned an upload email"⟩

def assignedRemote (manifest : BatchManifest) : Result String :=
  match manifest.stream.remote with
  | some remote => .ok remote
  | none => .error ⟨.invalidBatch, "sealed batch has not been assigned an upload remote"⟩

/-- Check one identity of a batch, under its name. -/
def requireSafeIdentity (name value : String) : Result Unit :=
  if isSafeIdentity value then .ok ()
  else .error ⟨.invalidBatch, s!"{name} is not a safe Git path component"⟩

def validateBatchIdentity (manifest : BatchManifest) : Result Unit := do
  requireSafeIdentity "batch id" manifest.batchId
  requireSafeIdentity "stream id" manifest.stream.streamId
  requireSafeIdentity "installation id" manifest.stream.installationId
  if manifest.contentSha256.utf8ByteSize ≠ 64 ∨
      manifest.contentSha256.toList.all isHexDigit = false then
    .error ⟨.invalidBatch, "batch content hash is invalid"⟩
  else do
    let _ ← assignedEmail manifest
    let _ ← assignedRemote manifest
    pure ()

/-! ### Paths of batches -/

/-- A number with zeros in front, up to a width that includes the sign. -/
def zeroPadded (width : Nat) (value : Int) : List Char :=
  let sign := if value < 0 then ['-'] else []
  let digits := Nat.toDigits 10 value.natAbs
  sign ++ List.replicate (width - (sign.length + digits.length)) '0' ++ digits

def utcDay (seconds : Int) : Except Interruption String := do
  let date ← civilDate seconds
  pure (String.ofList (zeroPadded 4 date.year ++ '-' :: zeroPadded 2 date.month ++
    '-' :: zeroPadded 2 date.day))

def hexDigit (value : Nat) : Char :=
  Char.ofNat (if value < 10 then '0'.toNat + value else 'A'.toNat + (value - 10))

def encodeByte (byte : UInt8) : List Char :=
  let character := Char.ofNat byte.toNat
  if byte.toNat < 128 ∧ (character.isAlphanum ∨ character = '@' ∨ character = '-' ∨
      character = '_' ∨ character = '.') then [character]
  else ['%', hexDigit (byte.toNat / 16), hexDigit (byte.toNat % 16)]

def encodeComponent (value : String) : String :=
  String.ofList ((Utf8.bytes value).flatMap encodeByte)

def batchPaths (manifest : BatchManifest) : Except Interruption (String × String) := do
  let day ← utcDay (manifest.firstEventUnixMs / 1000)
  match assignedEmail manifest with
  | .error error => throw (.refused error)
  | .ok email =>
      let base := "users/" ++ encodeComponent email ++ "/" ++ manifest.stream.installationId ++
        "/" ++ day ++ "/" ++ manifest.batchId
      pure (base ++ ".jsonl", base ++ ".manifest.json")

/-- The components of a path, as the standard library lists them. -/
inductive Component
  | rootDir
  | curDir
  | parentDir
  | normal (name : List Char)
  deriving DecidableEq

def segmentComponent (index : Nat) (segment : List Char) : Option Component :=
  if segment = [] then none
  else if segment = ['.'] then if index = 0 then some .curDir else none
  else if segment = ['.', '.'] then some .parentDir
  else some (.normal segment)

def components (path : List Char) : List Component :=
  (if isAbsolutePath path then [.rootDir] else []) ++
    (path.splitOn '/').zipIdx.filterMap fun (segment, index) => segmentComponent index segment

def Component.isNormal : Component → Bool
  | .normal _ => true
  | _ => false

def safeRepositoryPath (repository relative : String) : Result String :=
  if isAbsolutePath relative.toList || (components relative.toList).any (!·.isNormal) then
    .error ⟨.invalidBatch, "batch destination is not a safe relative path"⟩
  else .ok (repository ++ "/" ++ relative)

/-! ### The capacity of a shard -/

def batchPayloadBytes (batch : ReadyBatch) : Nat :=
  saturateU64 (batch.manifest.contentBytes + batch.manifestBytes)

def groupPayloadBytes (batches : List ReadyBatch) : Nat :=
  batches.foldl (fun total batch => saturateU64 (total + batchPayloadBytes batch)) 0

/-- Whether the group has room in a shard of so many bytes and files; a shard that is not empty
is rotated. -/
def ensureGroupShardCapacity (shardBytes shardFiles : Nat) (batches : List ReadyBatch)
    (options : SyncOptions) (rotateJournalShard : Result Unit) : Result Bool :=
  let incoming := groupPayloadBytes batches
  let incomingFiles := saturateU64 (batches.length * 2)
  if saturateU64 (shardBytes + incoming) ≤ options.shardMaxBytes ∧
      saturateU64 (shardFiles + incomingFiles) ≤ options.shardMaxFiles then
    .ok false
  else if shardFiles = 0 then
    .error ⟨.storageBudget, "sealed batch exceeds the configured shard capacity"⟩
  else do
    rotateJournalShard
    pure true

end SharedContext.LogSync
