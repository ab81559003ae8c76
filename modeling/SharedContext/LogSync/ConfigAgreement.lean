import Mathlib.Data.List.TakeWhile
import SharedContext.LogSync.SafePaths

/-!
# Which accepted configurations can be synchronised

The configuration and the synchroniser check the same values on their own.
They differ in three places: a shard of a single file, a host:path remote
without a user, and a shard that is no larger than a batch.
-/

namespace SharedContext.LogSync

open LogService (Config BatchManifest StreamBinding saturateU64 u64Max isControl isAbsolutePath
  containsText stripPrefix splitOnce)

/-! ### Lower case -/

theorem toLower_eq_iff {mark : Char} (other : ¬ ('A' ≤ mark ∧ mark ≤ 'Z'))
    (notLower : ¬ ('a' ≤ mark ∧ mark ≤ 'z')) (character : Char) :
    character.toLower = mark ↔ character = mark := by
  simp only [Char.le_def, UInt32.le_iff_toNat_le] at other notLower
  unfold Char.toLower
  split
  · rename_i upper
    simp only [ge_iff_le, UInt32.le_iff_toNat_le] at upper
    have shifted : (character.val + ('a'.val - 'A'.val)).toNat = character.val.toNat + 32 := by
      rw [UInt32.toNat_add]
      have last : 'Z'.val.toNat = 90 := rfl
      have width : ('a'.val - 'A'.val).toNat = 32 := rfl
      omega
    have first : 'A'.val.toNat = 65 := rfl
    have last : 'Z'.val.toNat = 90 := rfl
    have firstLower : 'a'.val.toNat = 97 := rfl
    have lastLower : 'z'.val.toNat = 122 := rfl
    constructor
    · rintro rfl
      dsimp only at notLower
      omega
    · rintro rfl
      omega
  · rfl

theorem isPrefixOf_map_toLower {part : List Char}
    (marks : ∀ mark ∈ part, ∀ character : Char, character.toLower = mark ↔ character = mark)
    (text : List Char) : part.isPrefixOf (text.map Char.toLower) = part.isPrefixOf text := by
  induction part generalizing text with
  | nil => rfl
  | cons mark part ih =>
      cases text with
      | nil => rfl
      | cons character text =>
          rw [List.forall_mem_cons] at marks
          have same : (mark == character.toLower) = (mark == character) := by
            rw [Bool.eq_iff_iff, beq_iff_eq, beq_iff_eq, eq_comm, marks.1, eq_comm]
          rw [List.map_cons, List.isPrefixOf, List.isPrefixOf, same, ih marks.2]

theorem containsText_map_toLower {part : List Char}
    (marks : ∀ mark ∈ part, ∀ character : Char, character.toLower = mark ↔ character = mark)
    (text : List Char) : containsText part (text.map Char.toLower) = containsText part text := by
  unfold containsText
  rw [List.map_tails, List.any_map]
  congr 1
  funext tail
  exact isPrefixOf_map_toLower marks tail

theorem isPrefixOf_lower {part text : List Char} (lower : part.map Char.toLower = part)
    (found : part.isPrefixOf text = true) : part.isPrefixOf (text.map Char.toLower) = true := by
  rw [List.isPrefixOf_iff_prefix] at *
  rw [← lower]
  exact found.map _

theorem containsText_of_start {first part text : List Char}
    (found : (first ++ part).isPrefixOf text = true) : containsText part text = true := by
  rw [List.isPrefixOf_iff_prefix] at found
  obtain ⟨rest, rfl⟩ := found
  unfold containsText
  rw [List.any_eq_true]
  refine ⟨part ++ rest, ?_, ?_⟩
  · rw [List.mem_tails, List.append_assoc]
    exact List.suffix_append _ _
  · rw [List.isPrefixOf_iff_prefix]
    exact List.prefix_append _ _

/-! ### The remote -/

/-- The forms of remotes that the configuration accepts. -/
inductive AcceptedForm (remote : List Char) : Prop
  | https (start : "https://".toList.isPrefixOf remote = true)
  | ssh (start : "ssh://".toList.isPrefixOf remote = true)
  | fileUrl (path : List Char) (url : stripPrefix "file://".toList remote = some path)
      (absolute : isAbsolutePath path = true) (straight : containsText "..".toList path = false)
  | localPath (path : isLocalPath remote = true)
  | scpLike (host path : List Char) (address : splitOnce ':' remote = some (host, path))
      (named : host ≠ [] ∧ path ≠ []) (single : containsText "//".toList remote = false)
      (plain : remote.head? ≠ some '-')

theorem stripPrefix_eq_some {start value rest : List Char}
    (stripped : stripPrefix start value = some rest) :
    start.isPrefixOf value = true ∧ rest = value.drop start.length := by
  unfold stripPrefix at stripped
  split at stripped
  · rename_i isPrefix
    exact ⟨isPrefix, (Option.some.inj stripped).symm⟩
  · cases stripped

/-- An address of the form host:path, with or without a user. -/
def isHostPath (remote : List Char) : Bool :=
  match splitOnce ':' remote with
  | some (host, path) =>
      host ≠ [] && path ≠ [] && !host.any isWhiteSpace && !path.any isWhiteSpace &&
        !containsText "//".toList remote && remote.head? ≠ some '-'
  | none => false

theorem validateOtherRemote_eq_ok {remote : List Char} :
    LogService.validateOtherRemote remote = .ok () ↔
      (isFileUrl remote || isLocalPath remote || isHostPath remote) = true := by
  have unfolded : LogService.validateOtherRemote remote =
      if isFileUrl remote || isLocalPath remote || isHostPath remote then pure ()
      else throw (LogService.invalidConfig
        "logging remote must be HTTPS, SSH, SCP-like, or an absolute local path") := by
    unfold LogService.validateOtherRemote isFileUrl isHostPath isLocalPath
    cases stripPrefix "file://".toList remote <;> cases splitOnce ':' remote <;> rfl
  rw [unfolded]
  split
  · rename_i accepted
    simp [accepted]
  · rename_i refused
    simp [refused]

theorem acceptedForm_of_validateOtherRemote {remote : List Char}
    (valid : LogService.validateOtherRemote remote = .ok ()) : AcceptedForm remote := by
  rw [validateOtherRemote_eq_ok, Bool.or_eq_true, Bool.or_eq_true] at valid
  rcases valid with (url | path) | address
  · unfold isFileUrl at url
    cases stripped : stripPrefix "file://".toList remote with
    | none =>
        rw [stripped] at url
        cases url
    | some path =>
        simp only [stripped, Bool.and_eq_true, Bool.not_eq_true'] at url
        exact .fileUrl path stripped url.1 url.2
  · exact .localPath path
  · unfold isHostPath at address
    cases split : splitOnce ':' remote with
    | none =>
        rw [split] at address
        cases address
    | some parts =>
        obtain ⟨host, path⟩ := parts
        simp only [split, Bool.and_eq_true, decide_eq_true_eq, Bool.not_eq_true'] at address
        obtain ⟨⟨⟨⟨⟨hostNamed, pathNamed⟩, -⟩, -⟩, single⟩, plain⟩ := address
        exact .scpLike host path split ⟨hostNamed, pathNamed⟩ single plain

theorem acceptedForm_of_validateRemote {remote : String}
    (valid : LogService.validateRemote remote = .ok ()) :
    remote.toList.any isControl = false ∧
      "ext::".toList.isPrefixOf (remote.toList.map Char.toLower) = false ∧
      AcceptedForm remote.toList := by
  simp only [LogService.validateRemote, Result.seq_eq_ok,
    LogService.Result.require_eq_ok] at valid
  obtain ⟨⟨-, -, control, extension, -, -⟩, form⟩ := valid
  refine ⟨control, extension, ?_⟩
  split at form
  · rename_i rest stripped
    exact .https (stripPrefix_eq_some stripped).1
  · split at form
    · rename_i rest stripped
      exact .ssh (stripPrefix_eq_some stripped).1
    · exact acceptedForm_of_validateOtherRemote form

/-- The remote is a URL or an absolute path that never goes up, or it names a user before its first
colon. -/
def NamesUser (remote : List Char) : Prop :=
  "https://".toList.isPrefixOf remote = true ∨ "ssh://".toList.isPrefixOf remote = true ∨
    "file://".toList.isPrefixOf remote = true ∨ isLocalPath remote = true ∨
    ∃ host path, splitOnce ':' remote = some (host, path) ∧ '@' ∈ host

theorem head?_of_isPrefixOf {part text : List Char} (named : part ≠ [])
    (found : part.isPrefixOf text = true) : text.head? = part.head? := by
  rw [List.isPrefixOf_iff_prefix] at found
  obtain ⟨rest, rfl⟩ := found
  cases part with
  | nil => exact absurd rfl named
  | cons mark part => rfl

theorem slash_marks : ∀ mark ∈ "//".toList, ∀ character : Char,
    character.toLower = mark ↔ character = mark := by
  intro mark member
  have isSlash : mark = '/' := by simpa using member
  subst isSlash
  exact toLower_eq_iff (by decide) (by decide)

theorem dot_marks : ∀ mark ∈ "..".toList, ∀ character : Char,
    character.toLower = mark ↔ character = mark := by
  intro mark member
  have isDot : mark = '.' := by simpa using member
  subst isDot
  exact toLower_eq_iff (by decide) (by decide)

theorem isFileUrl_lower {remote path : List Char}
    (url : stripPrefix "file://".toList remote = some path) (absolute : isAbsolutePath path = true)
    (straight : containsText "..".toList path = false) :
    isFileUrl (remote.map Char.toLower) = true := by
  obtain ⟨start, rfl⟩ := stripPrefix_eq_some url
  have lower : stripPrefix "file://".toList (remote.map Char.toLower) =
      some ((remote.drop "file://".toList.length).map Char.toLower) := by
    rw [stripPrefix, if_pos (isPrefixOf_lower (by decide) start), List.map_drop]
  have root : isAbsolutePath ((remote.drop "file://".toList.length).map Char.toLower) = true := by
    unfold isAbsolutePath at absolute ⊢
    rw [decide_eq_true_eq] at absolute ⊢
    rw [List.head?_map, absolute]
    rfl
  rw [isFileUrl, lower]
  dsimp only
  rw [root, containsText_map_toLower dot_marks, straight]
  rfl

theorem validateRemote_iff {remote : String}
    (valid : LogService.validateRemote remote = .ok ()) :
    validateRemote remote = .ok () ↔ NamesUser remote.toList := by
  obtain ⟨control, extension, form⟩ := acceptedForm_of_validateRemote valid
  have accepts : validateRemote remote = .ok () ↔ remote.toList.head? ≠ some '-' ∧
      (("https://".toList.isPrefixOf (remote.toList.map Char.toLower) ||
          "ssh://".toList.isPrefixOf (remote.toList.map Char.toLower)) ||
        isScpLike remote.toList || isFileUrl (remote.toList.map Char.toLower) ||
        isLocalPath remote.toList) = true := by
    unfold validateRemote
    dsimp only
    rw [control, extension]
    generalize ("https://".toList.isPrefixOf _ || _ || _ || _ || _) = accepted
    cases accepted <;> simp
  rw [accepts]
  generalize remote.toList = characters at *
  cases form with
  | https start =>
      refine ⟨fun _ => .inl start, fun _ => ⟨?_, ?_⟩⟩
      · rw [head?_of_isPrefixOf (by decide) start]
        decide
      · rw [isPrefixOf_lower (by decide) start]
        rfl
  | ssh start =>
      refine ⟨fun _ => .inr (.inl start), fun _ => ⟨?_, ?_⟩⟩
      · rw [head?_of_isPrefixOf (by decide) start]
        decide
      · rw [isPrefixOf_lower (by decide) start, Bool.or_true]
        rfl
  | fileUrl path url absolute straight =>
      have start := (stripPrefix_eq_some url).1
      refine ⟨fun _ => .inr (.inr (.inl start)), fun _ => ⟨?_, ?_⟩⟩
      · rw [head?_of_isPrefixOf (by decide) start]
        decide
      · rw [isFileUrl_lower url absolute straight, Bool.or_true, Bool.true_or]
  | localPath path =>
      have absolute : isAbsolutePath characters = true := by
        rw [isLocalPath, Bool.and_eq_true] at path
        exact path.1
      refine ⟨fun _ => .inr (.inr (.inr (.inl path))), fun _ => ⟨?_, ?_⟩⟩
      · rw [isAbsolutePath, decide_eq_true_eq] at absolute
        rw [absolute]
        decide
      · rw [path, Bool.or_true]
  | scpLike host path address named single plain =>
      have singleLower : containsText "//".toList (characters.map Char.toLower) = false := by
        rw [containsText_map_toLower slash_marks, single]
      have noUrl : ∀ scheme : List Char, ∀ text ∈ [characters, characters.map Char.toLower],
          (scheme ++ "//".toList).isPrefixOf text = true → False := by
        intro scheme text member found
        have doubled := containsText_of_start found
        simp only [List.mem_cons, List.not_mem_nil, or_false] at member
        rcases member with rfl | rfl
        · rw [single] at doubled
          cases doubled
        · rw [singleLower] at doubled
          cases doubled
      have noScheme : containsText "://".toList characters = false := by
        by_contra found
        rw [Bool.not_eq_false] at found
        unfold containsText at found
        rw [List.any_eq_true] at found
        obtain ⟨tail, suffix, start⟩ := found
        have inside := @containsText_of_start [':'] "//".toList tail start
        have doubled : containsText "//".toList characters = true := by
          unfold containsText at inside ⊢
          rw [List.any_eq_true] at inside ⊢
          obtain ⟨later, laterSuffix, here⟩ := inside
          exact ⟨later, (List.mem_tails _ _).mpr
            (((List.mem_tails _ _).mp laterSuffix).trans ((List.mem_tails _ _).mp suffix)), here⟩
        rw [single] at doubled
        cases doubled
      have scp : isScpLike characters = host.contains '@' := by
        rw [isScpLike, noScheme, address]
        simp [named.1, named.2]
      constructor
      · rintro ⟨-, accepted⟩
        rw [scp] at accepted
        simp only [Bool.or_eq_true] at accepted
        rcases accepted with (((https | ssh) | user) | url) | localPath
        · exact (noUrl "https:".toList _ (by simp) https).elim
        · exact (noUrl "ssh:".toList _ (by simp) ssh).elim
        · exact .inr (.inr (.inr (.inr ⟨host, path, address, by simpa using user⟩)))
        · unfold isFileUrl at url
          cases stripped : stripPrefix "file://".toList (characters.map Char.toLower) with
          | none =>
              rw [stripped] at url
              cases url
          | some rest =>
              exact (noUrl "file:".toList _ (by simp) (stripPrefix_eq_some stripped).1).elim
        · exact .inr (.inr (.inr (.inl localPath)))
      · intro names
        refine ⟨plain, ?_⟩
        rcases names with https | ssh | file | localPath | ⟨other, rest, split, user⟩
        · exact (noUrl "https:".toList _ (by simp) https).elim
        · exact (noUrl "ssh:".toList _ (by simp) ssh).elim
        · exact (noUrl "file:".toList _ (by simp) file).elim
        · rw [localPath, Bool.or_true]
        · rw [address] at split
          obtain ⟨rfl, -⟩ := Prod.mk.inj (Option.some.inj split)
          rw [scp, List.contains_iff_mem.mpr user, Bool.or_true, Bool.true_or, Bool.true_or]

/-! ### Limits -/

theorem valid_limits {config : Config} (valid : LogService.validateConfig config = .ok ()) :
    1 ≤ config.sync.timeoutSeconds ∧ 1 ≤ config.sync.maxNewPayloadMib ∧
      1 ≤ config.storage.batchMaxMib ∧ config.storage.batchMaxMib ≤ 128 ∧
      1 ≤ config.storage.shardMaxMib ∧ 1 ≤ config.storage.shardMaxFiles := by
  simp only [LogService.validateConfig, Result.seq_eq_ok, LogService.validateSync,
    LogService.validateStorage, LogService.Result.require_eq_ok] at valid
  obtain ⟨-, -, -, -, -, -, ⟨timeout, payload, -⟩, zero, -, -, batch, -⟩ := valid
  simp only [List.mem_cons, not_or] at zero
  omega

theorem mib_le_saturate {count : Nat} (positive : 1 ≤ count) : mib ≤ saturateU64 (count * mib) := by
  unfold saturateU64 u64Max mib
  omega

theorem validateOptions_iff {config : Config}
    (valid : LogService.validateConfig config = .ok ()) :
    validateOptions (.fromConfig config) = .ok () ↔ 2 ≤ config.storage.shardMaxFiles := by
  obtain ⟨timeout, payload, -, -, shard, -⟩ := valid_limits valid
  have payloadBytes := mib_le_saturate payload
  have shardBytes := mib_le_saturate shard
  unfold mib at payloadBytes shardBytes
  have accepts : validateOptions (.fromConfig config) = .ok () ↔
      ¬ ((SyncOptions.fromConfig config).deadlineSeconds = 0 ∨
        defaultDeadlineSeconds < (SyncOptions.fromConfig config).deadlineSeconds ∨
        (SyncOptions.fromConfig config).maxNewPayloadBytes = 0 ∨
        (SyncOptions.fromConfig config).shardMaxBytes = 0 ∨
        (SyncOptions.fromConfig config).shardMaxFiles < 2 ∨
        (SyncOptions.fromConfig config).outputLimit = 0) := by
    unfold validateOptions
    split
    · simp_all
    · simp_all
  rw [accepts]
  unfold SyncOptions.fromConfig defaultDeadlineSeconds defaultOutputLimit mib
  dsimp only
  omega

/-! ### Sealed batches -/

/-- A batch that was sealed for the target of a configuration. -/
structure SealedFor (config : Config) (batch : ReadyBatch) : Prop where
  target : batch.manifest.stream = config.binding
  identity : validateBatchIdentity batch.manifest = .ok ()
  time : isI64 batch.manifest.firstEventUnixMs

/-- A batch that was sealed because it had reached the configured size: before its last line it had
not.  One line of a normalized event and a manifest are far smaller than a MiB. -/
structure SealedAtSize (config : Config) (batch : ReadyBatch) (lastLine : Nat) : Prop where
  reached : config.storage.batchMaxMib * mib ≤ batch.manifest.contentBytes
  before : batch.manifest.contentBytes < config.storage.batchMaxMib * mib + lastLine
  written : 0 < batch.manifestBytes
  small : lastLine + batch.manifestBytes ≤ mib

/-- What an accepted configuration is to be good for. -/
structure Synchronises (config : Config) (remote : String) : Prop where
  options : validateOptions (.fromConfig config) = .ok ()
  remote : validateRemote remote = .ok ()
  paths : ∀ batch, SealedFor config batch → ∃ events metadata,
    batchPaths batch.manifest = .ok (events, metadata) ∧
      ∀ repository : String, ∀ path ∈ [events, metadata],
        safeRepositoryPath repository path = .ok (repository ++ "/" ++ path)
  capacity : ∀ batch lastLine, SealedFor config batch → SealedAtSize config batch lastLine →
    ∀ rotateJournalShard, ensureGroupShardCapacity 0 0 [batch] (.fromConfig config)
      rotateJournalShard = .ok false

theorem isSafeIdentity_of_validate {manifest : BatchManifest}
    (valid : validateBatchIdentity manifest = .ok ()) :
    isSafeIdentity manifest.batchId = true ∧
      isSafeIdentity manifest.stream.installationId = true := by
  have safe : ∀ name value : String, requireSafeIdentity name value = .ok () →
      isSafeIdentity value = true := by
    intro name value checked
    unfold requireSafeIdentity at checked
    split at checked
    · assumption
    · cases checked
  simp only [validateBatchIdentity, Result.seq_eq_ok] at valid
  exact ⟨safe _ _ valid.1, safe _ _ valid.2.2.1⟩

theorem address_of_normalizeEmail {email normalized : String}
    (valid : LogService.normalizeEmail email = .ok normalized) : '@' ∈ email.toList := by
  simp only [LogService.normalizeEmail, Result.seq_eq_ok] at valid
  obtain ⟨-, parts⟩ := valid
  split at parts
  · cases parts
  · rename_i localPart domain split
    by_contra missing
    have whole : email.toList.reverse.takeWhile (· ≠ '@') = email.toList.reverse := by
      rw [List.takeWhile_eq_self_iff]
      intro character member
      rw [decide_eq_true_eq]
      rintro rfl
      exact missing (List.mem_reverse.mp member)
    rw [LogService.rsplitOnce, whole, List.length_reverse] at split
    simp at split

theorem target_of_validateConfig {config : Config} {email remote : String}
    (valid : LogService.validateConfig config = .ok ()) (hasEmail : config.email = some email)
    (hasRemote : config.remote = some remote) :
    '@' ∈ email.toList ∧ LogService.validateRemote remote = .ok () := by
  simp only [LogService.validateConfig, Result.seq_eq_ok] at valid
  have target := valid.2.2.2.1
  rw [hasEmail, hasRemote] at target
  unfold LogService.validateTarget at target
  dsimp only at target
  simp only [Result.bind_eq_ok] at target
  obtain ⟨normalized, accepted, remoteValid⟩ := target
  exact ⟨address_of_normalizeEmail accepted, remoteValid⟩

theorem capacity_iff {config : Config} (files : 2 ≤ config.storage.shardMaxFiles)
    (batch : ReadyBatch) (rotateJournalShard : Result Unit) :
    ensureGroupShardCapacity 0 0 [batch] (.fromConfig config) rotateJournalShard = .ok false ↔
      batchPayloadBytes batch ≤ saturateU64 (config.storage.shardMaxMib * mib) := by
  have payload : saturateU64 (0 + groupPayloadBytes [batch]) = batchPayloadBytes batch := by
    unfold groupPayloadBytes batchPayloadBytes saturateU64
    rw [List.foldl_cons, List.foldl_nil]
    omega
  have incomingFiles : saturateU64 (0 + saturateU64 ([batch].length * 2)) = 2 := rfl
  unfold ensureGroupShardCapacity
  dsimp only
  rw [payload, incomingFiles]
  have shard : (SyncOptions.fromConfig config).shardMaxBytes =
      saturateU64 (config.storage.shardMaxMib * mib) := rfl
  have shardFiles : (SyncOptions.fromConfig config).shardMaxFiles =
      config.storage.shardMaxFiles := rfl
  rw [shard, shardFiles]
  by_cases fits : batchPayloadBytes batch ≤ saturateU64 (config.storage.shardMaxMib * mib)
  · simp [fits, files]
  · simp [fits]

/-- A batch that is sealed as soon as it has the configured size. -/
def fullBatch (config : Config) : ReadyBatch :=
  { manifest :=
      { schemaVersion := 1
        batchId := "batch"
        stream := config.binding
        firstEventUnixMs := 0
        lastEventUnixMs := 0
        eventCount := 1
        contentBytes := config.storage.batchMaxMib * mib
        contentSha256 := String.ofList (List.replicate 64 '0')
        collectorVersion := "1"
        sealedAtUnixMs := 0 }
    manifestBytes := 1 }

theorem isSafeIdentity_of_validateId {value field : String}
    (valid : LogService.validateId value field = .ok ()) : isSafeIdentity value = true := by
  rw [LogService.validateId, LogService.Result.require_eq_ok] at valid
  obtain ⟨named, short, characters⟩ := valid
  unfold isSafeIdentity
  simp [named, short, characters]

theorem sealedFor_fullBatch {config : Config} {email remote : String}
    (valid : LogService.validateConfig config = .ok ()) (hasEmail : config.email = some email)
    (hasRemote : config.remote = some remote) : SealedFor config (fullBatch config) where
  target := rfl
  identity := by
    simp only [LogService.validateConfig, Result.seq_eq_ok] at valid
    have installation : isSafeIdentity config.installationId = true :=
      isSafeIdentity_of_validateId valid.2.1
    have stream : isSafeIdentity config.streamId = true :=
      isSafeIdentity_of_validateId valid.2.2.1
    have digest : ¬ ((String.ofList (List.replicate 64 '0')).utf8ByteSize ≠ 64 ∨
        (String.ofList (List.replicate 64 '0')).toList.all isHexDigit = false) := by
      decide
    have batchOk : requireSafeIdentity "batch id" (fullBatch config).manifest.batchId = .ok () := by
      change requireSafeIdentity "batch id" "batch" = .ok ()
      decide
    have streamOk : requireSafeIdentity "stream id"
        (fullBatch config).manifest.stream.streamId = .ok () := if_pos stream
    have installationOk : requireSafeIdentity "installation id"
        (fullBatch config).manifest.stream.installationId = .ok () := if_pos installation
    have assigned : (fullBatch config).manifest.stream.email = some email := hasEmail
    have targeted : (fullBatch config).manifest.stream.remote = some remote := hasRemote
    unfold validateBatchIdentity
    rw [batchOk, streamOk, installationOk, assignedEmail, assigned, assignedRemote, targeted]
    exact if_neg digest
  time := by
    change isI64 0
    decide

theorem sealedAtSize_fullBatch (config : Config) : SealedAtSize config (fullBatch config) 1 where
  reached := Nat.le_refl _
  before := Nat.lt_succ_self _
  written := Nat.one_pos
  small := by
    change 1 + 1 ≤ mib
    decide

/-- An accepted configuration can be synchronised exactly if a shard has room for both files of a
batch, the remote names its user, and a shard is larger than a batch. -/
theorem synchronises_iff (config : Config) (email remote : String)
    (valid : LogService.validateConfig config = .ok ()) (hasEmail : config.email = some email)
    (hasRemote : config.remote = some remote) :
    Synchronises config remote ↔
      2 ≤ config.storage.shardMaxFiles ∧ NamesUser remote.toList ∧
        config.storage.batchMaxMib < config.storage.shardMaxMib := by
  obtain ⟨address, remoteValid⟩ := target_of_validateConfig valid hasEmail hasRemote
  obtain ⟨-, -, -, batchBound, -, -⟩ := valid_limits valid
  constructor
  · intro synchronises
    have files := (validateOptions_iff valid).mp synchronises.options
    refine ⟨files, (validateRemote_iff remoteValid).mp synchronises.remote, ?_⟩
    have room := synchronises.capacity (fullBatch config) 1
      (sealedFor_fullBatch valid hasEmail hasRemote) (sealedAtSize_fullBatch config) (.ok ())
    rw [capacity_iff files] at room
    unfold batchPayloadBytes fullBatch saturateU64 u64Max mib at room
    dsimp only at room
    omega
  · rintro ⟨files, names, larger⟩
    refine ⟨(validateOptions_iff valid).mpr files, (validateRemote_iff remoteValid).mpr names,
      fun batch sealed => ?_, fun batch lastLine _ atSize rotateJournalShard => ?_⟩
    · obtain ⟨batchSafe, installationSafe⟩ := isSafeIdentity_of_validate sealed.identity
      have assigned : batch.manifest.stream.email = some email := by
        rw [sealed.target]
        exact hasEmail
      exact batchPaths_safe assigned address installationSafe batchSafe sealed.time
    · obtain ⟨reached, before, written, small⟩ := atSize
      rw [capacity_iff files]
      unfold batchPayloadBytes saturateU64 u64Max mib at *
      omega

/-- The configuration with all defaults and an HTTPS remote. -/
def defaultConfig : Config :=
  ⟨1, true, some "user@example.com", some "https://git.example/logs.git", "installation",
    "stream", 0, .default, .default, []⟩

theorem synchronises_iff_defaultConfig :
    Synchronises defaultConfig "https://git.example/logs.git" :=
  (synchronises_iff defaultConfig "user@example.com" "https://git.example/logs.git"
    (by decide) rfl rfl).mpr
    ⟨by decide, .inl (by decide), by decide⟩

/-- The same configuration with a remote that has a host alias and no user. -/
def aliasConfig : Config :=
  { defaultConfig with remote := some "logs-host:team/logs.git" }

/-- The configuration accepts a remote that the synchroniser refuses for ever. -/
theorem alias_remote_refused :
    LogService.validateConfig aliasConfig = .ok () ∧
    validateRemote "logs-host:team/logs.git" =
      .error ⟨.invalidRemote, "remote must be an HTTPS, SSH, or SCP-like Git URL"⟩ ∧
    ¬ Synchronises aliasConfig "logs-host:team/logs.git" := by
  have refused : validateRemote "logs-host:team/logs.git" =
      .error ⟨.invalidRemote, "remote must be an HTTPS, SSH, or SCP-like Git URL"⟩ := by
    decide
  refine ⟨by decide, refused, fun synchronises => ?_⟩
  have accepted := synchronises.remote
  rw [refused] at accepted
  cases accepted

end SharedContext.LogSync
