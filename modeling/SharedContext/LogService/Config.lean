import SharedContext.LogService.Batch

/-!
# The logging configuration

The configuration names the current stream and its upload target.  Setting or
changing the target starts a new stream, and the old one is retained as long as
the spool mentions it.
-/

namespace SharedContext.LogService

def configSchemaVersion : Nat := 1

def maxRetainedStreams : Nat := 32

structure SyncConfig where
  scheduled : Bool
  onMaintain : Bool
  timeoutSeconds : Nat
  maxNewPayloadMib : Nat
  maxRetryCount : Nat
  deriving DecidableEq, Repr

def SyncConfig.default : SyncConfig :=
  ⟨true, true, 60, 20, 1⟩

structure StorageConfig where
  batchMaxMib : Nat
  sealIntervalSeconds : Nat
  shardMaxMib : Nat
  shardMaxFiles : Nat
  spoolMaxMib : Nat
  localBudgetMib : Nat
  minFreeDiskMib : Nat
  cacheMaxAgeDays : Nat
  deriving DecidableEq, Repr

def StorageConfig.default : StorageConfig :=
  ⟨5, 60, 128, 4096, 256, 1024, 1024, 7⟩

structure Config where
  schemaVersion : Nat
  enabled : Bool
  email : Option String
  remote : Option String
  installationId : String
  streamId : String
  streamCreatedAtUnixMs : Int
  sync : SyncConfig
  storage : StorageConfig
  retainedStreams : List StreamTarget
  deriving DecidableEq, Repr

namespace Config

def currentTarget (config : Config) : StreamTarget :=
  ⟨config.streamId, config.installationId, config.email, config.remote,
    config.streamCreatedAtUnixMs⟩

/-- The binding of the batches that are opened under the configuration. -/
def binding (config : Config) : StreamBinding :=
  .ofTarget config.currentTarget

end Config

/-! ### Validation -/

def isControl (character : Char) : Bool :=
  character.toNat < 0x20 || (0x7f ≤ character.toNat && character.toNat ≤ 0x9f)

def validateId (value field : String) : Result Unit :=
  Result.require (value ≠ "" ∧ value.utf8ByteSize ≤ 128 ∧
      value.toList.all fun character =>
        character.isAlphanum || character = '-' || character = '_')
    (invalidConfig s!"invalid {field}")

def rsplitOnce (separator : Char) (value : List Char) : Option (List Char × List Char) :=
  let tail := value.reverse.takeWhile (· ≠ separator)
  if tail.length = value.length then none
  else some (value.take (value.length - tail.length - 1), tail.reverse)

def splitOnce (separator : Char) (value : List Char) : Option (List Char × List Char) :=
  let head := value.takeWhile (· ≠ separator)
  if head.length = value.length then none else some (head, value.drop (head.length + 1))

def normalizeEmail (value : String) : Result String := do
  let characters := value.toList
  Result.require (value.utf8ByteSize ≤ 254 ∧ characters.any isControl = false ∧
      '/' ∉ characters ∧ '\\' ∉ characters)
    (invalidConfig "invalid logging email")
  match rsplitOnce '@' characters with
  | none => throw (invalidConfig "invalid logging email")
  | some (localPart, domain) => do
      Result.require (localPart ≠ [] ∧ domain ≠ [] ∧ '@' ∉ localPart)
        (invalidConfig "invalid logging email")
      Result.require (localPart ≠ ['.'] ∧ localPart ≠ ['.', '.'] ∧ '/' ∉ domain ∧
          '\\' ∉ domain ∧ '@' ∉ domain)
        (invalidConfig "invalid logging email")
      pure (String.ofList (localPart ++ '@' :: domain.map Char.toLower))

def stripPrefix (start value : List Char) : Option (List Char) :=
  if start.isPrefixOf value then some (value.drop start.length) else none

def isAbsolutePath (value : List Char) : Bool :=
  value.head? = some '/'

def containsText (part value : List Char) : Bool :=
  value.tails.any part.isPrefixOf

def authorityOf (rest : List Char) : List Char :=
  rest.takeWhile (· ≠ '/')

def hasInlineCredentials : Result Unit :=
  throw (invalidConfig "remote must not contain inline credentials")

/-- Accept a local path or an address of the form host:path. -/
def validateOtherRemote (value : List Char) : Result Unit :=
  let localUrl := match stripPrefix "file://".toList value with
    | some path => isAbsolutePath path && !containsText "..".toList path
    | none => false
  let localPath := isAbsolutePath value && !(value.splitOn '/').contains "..".toList
  let scpLike := match splitOnce ':' value with
    | some (host, path) =>
        host ≠ [] && path ≠ [] && !host.any isWhiteSpace && !path.any isWhiteSpace &&
          !containsText "//".toList value && value.head? ≠ some '-'
    | none => false
  if localUrl || localPath || scpLike then pure ()
  else throw (invalidConfig
    "logging remote must be HTTPS, SSH, SCP-like, or an absolute local path")

def validateRemote (value : String) : Result Unit := do
  let characters := value.toList
  Result.require (value ≠ "" ∧ value.utf8ByteSize ≤ 2048 ∧ characters.any isControl = false ∧
      "ext::".toList.isPrefixOf (characters.map Char.toLower) = false ∧
      '?' ∉ characters ∧ '#' ∉ characters)
    (invalidConfig "invalid logging remote")
  match stripPrefix "https://".toList characters with
  | some rest =>
      if authorityOf rest = [] ∨ '@' ∈ authorityOf rest then hasInlineCredentials else pure ()
  | none =>
      match stripPrefix "ssh://".toList characters with
      | some rest =>
          let withPassword := match splitOnce '@' (authorityOf rest) with
            | some (userinfo, _) => userinfo.contains ':'
            | none => false
          if authorityOf rest = [] ∨ withPassword = true then hasInlineCredentials else pure ()
      | none => validateOtherRemote characters

def validateSync (sync : SyncConfig) : Result Unit :=
  Result.require ((1 ≤ sync.timeoutSeconds ∧ sync.timeoutSeconds ≤ 300) ∧
      (1 ≤ sync.maxNewPayloadMib ∧ sync.maxNewPayloadMib ≤ 1024) ∧ sync.maxRetryCount ≤ 10)
    (invalidConfig "invalid sync timeout, payload budget, or retry limit")

def validateStorage (storage : StorageConfig) : Result Unit :=
  Result.require
    (0 ∉ [storage.batchMaxMib, storage.sealIntervalSeconds, storage.shardMaxMib,
        storage.shardMaxFiles, storage.spoolMaxMib, storage.localBudgetMib,
        storage.minFreeDiskMib, storage.cacheMaxAgeDays] ∧
      storage.batchMaxMib ≤ storage.spoolMaxMib ∧
      storage.spoolMaxMib ≤ storage.localBudgetMib ∧ storage.batchMaxMib ≤ 128 ∧
      storage.sealIntervalSeconds ≤ 3600 ∧ storage.shardMaxFiles ≤ 100000 ∧
      storage.localBudgetMib ≤ 65536 ∧ storage.cacheMaxAgeDays ≤ 365)
    (invalidConfig "invalid non-positive or inconsistent storage limits")

/-- An email and a remote that come together are valid. -/
def validateTarget (email remote : Option String) (incomplete : Error) : Result Unit :=
  match email, remote with
  | some email, some remote => do
      let _ ← normalizeEmail email
      validateRemote remote
  | none, none => pure ()
  | _, _ => throw incomplete

/-- Each retained stream is valid, and none has an identity seen before. -/
def validateRetained : List String → List StreamTarget → Result Unit
  | _, [] => pure ()
  | seen, target :: targets => do
      validateId target.streamId "retained stream_id"
      validateId target.installationId "retained installation_id"
      validateTarget target.email target.remote
        (invalidConfig "retained stream is partially assigned")
      Result.require (target.streamId ∉ seen) (invalidConfig "duplicate stream identity")
      validateRetained (target.streamId :: seen) targets

def validateConfig (config : Config) : Result Unit := do
  Result.require (config.schemaVersion = configSchemaVersion)
    (invalidConfig "unsupported log config schema_version")
  validateId config.installationId "installation_id"
  validateId config.streamId "stream_id"
  validateTarget config.email config.remote
    (invalidConfig "email and remote must be configured together")
  Result.require (config.retainedStreams.length ≤ maxRetainedStreams)
    (invalidConfig "too many retained streams")
  validateRetained [config.streamId] config.retainedStreams
  validateSync config.sync
  validateStorage config.storage

end SharedContext.LogService
