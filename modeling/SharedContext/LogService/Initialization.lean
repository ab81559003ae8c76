import SharedContext.LogService.Config

/-!
# Changes of the logging configuration

Initializing again with another target starts a new stream.  The batches of the
old one may still wait in the spool, so its target is retained until the spool
is seen not to mention it.  Enabling and disabling change nothing but the flag.
-/

namespace SharedContext.LogService

namespace Config

/-- The target of a current or retained stream. -/
def target (config : Config) (streamId : String) : Option StreamTarget :=
  if config.streamId = streamId then some config.currentTarget
  else config.retainedStreams.find? (·.streamId = streamId)

def isAssigned (config : Config) : Bool :=
  config.email.isSome && config.remote.isSome

end Config

structure InitOptions where
  email : Option String
  remote : Option String
  installationId : Option String
  enabled : Bool
  deriving DecidableEq, Repr

structure InitReport where
  config : Config
  created : Bool
  rotatedStream : Bool
  boundUnassignedBatches : Nat
  deriving DecidableEq, Repr

def normalizeOptions (options : InitOptions) : Result InitOptions := do
  let email ← match options.email, options.remote with
    | some email, some remote => do
        let email ← normalizeEmail email
        validateRemote remote
        pure (some email)
    | none, none => pure none
    | _, _ => throw (invalidConfig "email and remote must be supplied together")
  match options.installationId with
  | some id => validateId id "installation_id"
  | none => pure ()
  pure { options with email := email }

/-! ### The surroundings -/

/-- How a file is replaced: after the rename, the directory may fail to be synced. -/
inductive WriteOutcome
  | done
  | unsynced (error : Error)
  | failed (error : Error)
  deriving DecidableEq, Repr

def WriteOutcome.store (outcome : WriteOutcome) (old : Option Config) (new : Config) :
    Option Config × Result Unit :=
  match outcome with
  | .done => (some new, .ok ())
  | .unsynced error => (some new, .error error)
  | .failed error => (old, .error error)

/-- What a command meets: `opened` is preparing the layout, taking the locks and reading
the stored configuration, and the spool is read once more after batches were bound. -/
structure Surroundings where
  opened : Result Unit
  streamHasSpool : String → Result Bool
  newStreamId : String
  newInstallationId : String
  now : Int
  written : WriteOutcome
  bindUnassignedBatches : StreamTarget → Result Nat
  spoolAfterwards : String → Result Bool
  rewritten : WriteOutcome

/-- A stream is retained while the spool may mention it. -/
def retainSpooled (streamHasSpool : String → Result Bool) (config : Config) : Config :=
  { config with
    retainedStreams := config.retainedStreams.filter fun target =>
      match streamHasSpool target.streamId with
      | .ok found => found
      | .error _ => true }

/-! ### The commands -/

/-- The old target is retained where the spool mentions its stream. -/
def retainOld (surroundings : Surroundings) (config : Config) : Result (List StreamTarget) := do
  let old := config.currentTarget
  let others := config.retainedStreams.filter (·.streamId ≠ old.streamId)
  match ← surroundings.streamHasSpool old.streamId with
  | false => pure others
  | true => do
      Result.require (others.length < maxRetainedStreams)
        (invalidConfig "too many pending retained streams")
      pure (others ++ [old])

def rotateStream (surroundings : Surroundings) (options : InitOptions) (config : Config) :
    Result Config := do
  let retained ← retainOld surroundings config
  pure { config with
    streamId := surroundings.newStreamId
    streamCreatedAtUnixMs := surroundings.now
    email := options.email
    remote := options.remote
    retainedStreams := retained }

def checkInstallation (requested : Option String) (config : Config) : Result Unit :=
  match requested with
  | some requested =>
      Result.require (requested = config.installationId)
        (invalidConfig "installation_id is immutable")
  | none => pure ()

/-- Change the existing configuration, or start with a new one. -/
def draftConfig (surroundings : Surroundings) (options : InitOptions) :
    Option Config → Result (Config × Bool)
  | some config => do
      checkInstallation options.installationId config
      let targetChanged := decide (config.email ≠ options.email ∨ config.remote ≠ options.remote)
      let rotated := if targetChanged then rotateStream surroundings options config else pure config
      let config ← rotated
      pure ({ config with enabled := options.enabled }, targetChanged)
  | none =>
      pure (⟨configSchemaVersion, options.enabled, options.email, options.remote,
        options.installationId.getD surroundings.newInstallationId, surroundings.newStreamId,
        surroundings.now, .default, .default, []⟩, false)

def initConfig (surroundings : Surroundings) (options : InitOptions)
    (existing : Option Config) : Result (Config × Bool) := do
  let options ← normalizeOptions options
  surroundings.opened
  let (draft, rotatedStream) ← draftConfig surroundings options existing
  let config := retainSpooled surroundings.streamHasSpool draft
  validateConfig config
  pure (config, rotatedStream)

/-- The stored configuration after an initialization, and its result. -/
def init (surroundings : Surroundings) (options : InitOptions) (existing : Option Config) :
    Option Config × Result InitReport :=
  match initConfig surroundings options existing with
  | .error error => (existing, .error error)
  | .ok (config, rotatedStream) =>
      match surroundings.written.store existing config with
      | (stored, .error error) => (stored, .error error)
      | (stored, .ok _) =>
          let bound := if existing.isSome && config.isAssigned then
            surroundings.bindUnassignedBatches config.currentTarget else .ok 0
          match bound with
          | .error error => (stored, .error error)
          | .ok 0 => (stored, .ok ⟨config, existing.isNone, rotatedStream, 0⟩)
          | .ok (bound + 1) =>
              let config := retainSpooled surroundings.spoolAfterwards config
              match surroundings.rewritten.store stored config with
              | (stored, .error error) => (stored, .error error)
              | (stored, .ok _) =>
                  (stored, .ok ⟨config, existing.isNone, rotatedStream, bound + 1⟩)

def setEnabled (surroundings : Surroundings) (enabled : Bool) (existing : Option Config) :
    Option Config × Result Config :=
  match surroundings.opened, existing with
  | .error error, _ => (existing, .error error)
  | .ok _, none => (none, .error ⟨.notConfigured, "logging is not initialized"⟩)
  | .ok _, some config =>
      let config := { config with enabled := enabled }
      match surroundings.written.store existing config with
      | (stored, .error error) => (stored, .error error)
      | (stored, .ok _) => (stored, .ok config)

inductive ConfigCommand
  | init (options : InitOptions)
  | setEnabled (enabled : Bool)

structure ConfigCall where
  surroundings : Surroundings
  command : ConfigCommand

def ConfigCall.run (call : ConfigCall) (existing : Option Config) : Option Config :=
  match call.command with
  | .init options => (init call.surroundings options existing).1
  | .setEnabled enabled => (setEnabled call.surroundings enabled existing).1

def runCalls (existing : Option Config) (calls : List ConfigCall) : Option Config :=
  calls.foldl (fun stored call => call.run stored) existing

/-- The spool is never seen not to mention the stream. -/
def ConfigCall.MayMention (call : ConfigCall) (streamId : String) : Prop :=
  call.surroundings.streamHasSpool streamId ≠ .ok false ∧
    call.surroundings.spoolAfterwards streamId ≠ .ok false

/-! ### The targets of a configuration -/

namespace Config

def targets (config : Config) : List StreamTarget :=
  config.currentTarget :: config.retainedStreams

/-- No two targets are of one stream. -/
def Distinct (config : Config) : Prop :=
  (config.targets.map StreamTarget.streamId).Nodup

theorem target_eq_some_iff {config : Config} (distinct : config.Distinct) {streamId : String}
    {target : StreamTarget} :
    config.target streamId = some target ↔
      target ∈ config.targets ∧ target.streamId = streamId := by
  have apart := (List.nodup_cons.mp distinct).1
  have unique := List.inj_on_of_nodup_map (List.nodup_cons.mp distinct).2
  rw [Config.target, targets, List.mem_cons]
  split
  · rename_i isCurrent
    constructor
    · rintro ⟨⟩
      exact ⟨.inl rfl, isCurrent⟩
    · rintro ⟨rfl | retained, sameId⟩
      · rfl
      · exact absurd (List.mem_map.mpr ⟨target, retained, sameId.trans isCurrent.symm⟩) apart
  · rename_i notCurrent
    constructor
    · intro found
      exact ⟨.inr (List.mem_of_find?_eq_some found), by simpa using List.find?_some found⟩
    · rintro ⟨rfl | retained, sameId⟩
      · exact absurd sameId notCurrent
      · cases found : config.retainedStreams.find? (·.streamId = streamId) with
        | none => simpa [sameId] using List.find?_eq_none.mp found target retained
        | some other =>
            have otherId : other.streamId = streamId := by simpa using List.find?_some found
            rw [unique (List.mem_of_find?_eq_some found) retained (otherId.trans sameId.symm)]

end Config

theorem validateRetained_ok {seen : List String} {targets : List StreamTarget}
    (valid : validateRetained seen targets = .ok ()) :
    (targets.map StreamTarget.streamId).Nodup ∧ ∀ target ∈ targets, target.streamId ∉ seen := by
  induction targets generalizing seen with
  | nil => simp
  | cons target targets ih =>
      obtain ⟨-, valid⟩ := Result.seq_eq_ok.mp valid
      obtain ⟨-, valid⟩ := Result.seq_eq_ok.mp valid
      obtain ⟨-, valid⟩ := Result.seq_eq_ok.mp valid
      obtain ⟨unseen, valid⟩ := Result.seq_eq_ok.mp valid
      obtain ⟨nodup, fresh⟩ := ih valid
      rw [Result.require_eq_ok] at unseen
      refine ⟨?_, ?_⟩
      · rw [List.map_cons, List.nodup_cons]
        refine ⟨?_, nodup⟩
        rintro isLater
        obtain ⟨later, member, sameId⟩ := List.mem_map.mp isLater
        exact fresh later member (sameId ▸ List.mem_cons_self)
      · exact List.forall_mem_cons.mpr ⟨unseen, fun later member isSeen =>
          fresh later member (List.mem_cons_of_mem _ isSeen)⟩

theorem distinct_of_valid {config : Config} (valid : validateConfig config = .ok ()) :
    config.Distinct := by
  obtain ⟨-, valid⟩ := Result.seq_eq_ok.mp valid
  obtain ⟨-, valid⟩ := Result.seq_eq_ok.mp valid
  obtain ⟨-, valid⟩ := Result.seq_eq_ok.mp valid
  obtain ⟨-, valid⟩ := Result.seq_eq_ok.mp valid
  obtain ⟨-, valid⟩ := Result.seq_eq_ok.mp valid
  obtain ⟨retained, -⟩ := Result.seq_eq_ok.mp valid
  obtain ⟨nodup, fresh⟩ := validateRetained_ok retained
  refine List.nodup_cons.mpr ⟨?_, nodup⟩
  intro isRetained
  obtain ⟨target, member, sameId⟩ := List.mem_map.mp isRetained
  exact fresh target member (List.mem_singleton.mpr sameId)

/-! ### What a command keeps -/

/-- One configuration after another: the installation stays, streams stay distinct, and
every target is kept that may be pending. -/
structure Follows (mayMention : String → Prop) (old new : Config) : Prop where
  installation : new.installationId = old.installationId
  distinct : new.Distinct
  kept : ∀ target ∈ old.targets, mayMention target.streamId → target ∈ new.targets

theorem Follows.refl {mayMention : String → Prop} {config : Config}
    (distinct : config.Distinct) : Follows mayMention config config :=
  ⟨rfl, distinct, fun _ member _ => member⟩

theorem retainSpooled_kept {streamHasSpool : String → Result Bool} {config : Config}
    {target : StreamTarget} (member : target ∈ config.targets)
    (pending : streamHasSpool target.streamId ≠ .ok false) :
    target ∈ (retainSpooled streamHasSpool config).targets := by
  rcases List.mem_cons.mp member with rfl | retained
  · exact List.mem_cons_self
  · refine List.mem_cons_of_mem _ (List.mem_filter.mpr ⟨retained, ?_⟩)
    cases answer : streamHasSpool target.streamId with
    | error error => rfl
    | ok found =>
        cases found with
        | true => rfl
        | false => exact absurd answer pending

theorem retainSpooled_distinct {streamHasSpool : String → Result Bool} {config : Config}
    (distinct : config.Distinct) : (retainSpooled streamHasSpool config).Distinct :=
  distinct.sublist ((List.filter_sublist.map _).cons_cons _)

theorem rotateStream_kept {surroundings : Surroundings} {options : InitOptions}
    {old new : Config} (distinct : old.Distinct)
    (rotated : rotateStream surroundings options old = .ok new) :
    new.installationId = old.installationId ∧ ∀ target ∈ old.targets,
      surroundings.streamHasSpool target.streamId ≠ .ok false → target ∈ new.retainedStreams := by
  obtain ⟨retained, chosen, rotated⟩ := Result.bind_eq_ok.mp rotated
  cases rotated
  obtain ⟨pending, answer, chosen⟩ := Result.bind_eq_ok.mp chosen
  refine ⟨rfl, fun target member mayMention => ?_⟩
  have isOther : target ∈ old.retainedStreams → target ∈ old.retainedStreams.filter
      (·.streamId ≠ old.currentTarget.streamId) := by
    intro isRetained
    refine List.mem_filter.mpr ⟨isRetained, decide_eq_true fun sameId => ?_⟩
    exact (List.nodup_cons.mp distinct).1 (List.mem_map.mpr ⟨target, isRetained, sameId⟩)
  cases pending with
  | true =>
      obtain ⟨-, chosen⟩ := Result.seq_eq_ok.mp chosen
      cases chosen
      rcases List.mem_cons.mp member with rfl | isRetained
      · exact List.mem_append_right _ (List.mem_singleton_self _)
      · exact List.mem_append_left _ (isOther isRetained)
  | false =>
      cases chosen
      rcases List.mem_cons.mp member with rfl | isRetained
      · exact absurd answer mayMention
      · exact isOther isRetained

theorem draftConfig_kept {surroundings : Surroundings} {options : InitOptions}
    {old : Config} {drafted : Config × Bool} (distinct : old.Distinct)
    (draft : draftConfig surroundings options (some old) = .ok drafted) :
    drafted.1.installationId = old.installationId ∧ ∀ target ∈ old.targets,
      surroundings.streamHasSpool target.streamId ≠ .ok false → target ∈ drafted.1.targets := by
  obtain ⟨-, draft⟩ := Result.seq_eq_ok.mp draft
  obtain ⟨config, changed, draft⟩ := Result.bind_eq_ok.mp draft
  cases draft
  split at changed
  · obtain ⟨sameInstallation, kept⟩ := rotateStream_kept distinct changed
    exact ⟨sameInstallation, fun target member pending =>
      List.mem_cons_of_mem _ (kept target member pending)⟩
  · cases changed
    exact ⟨rfl, fun _ member _ => member⟩

theorem initConfig_distinct {surroundings : Surroundings} {options : InitOptions}
    {existing : Option Config} {found : Config × Bool}
    (initialized : initConfig surroundings options existing = .ok found) :
    found.1.Distinct := by
  obtain ⟨_, -, initialized⟩ := Result.bind_eq_ok.mp initialized
  obtain ⟨-, initialized⟩ := Result.seq_eq_ok.mp initialized
  obtain ⟨⟨draft, rotatedStream⟩, -, initialized⟩ := Result.bind_eq_ok.mp initialized
  obtain ⟨valid, initialized⟩ := Result.seq_eq_ok.mp initialized
  cases initialized
  exact distinct_of_valid valid

theorem initConfig_follows {surroundings : Surroundings} {options : InitOptions}
    {old : Config} {found : Config × Bool} (distinct : old.Distinct)
    (initialized : initConfig surroundings options (some old) = .ok found) :
    Follows (fun streamId => surroundings.streamHasSpool streamId ≠ .ok false) old found.1 := by
  have foundDistinct := initConfig_distinct initialized
  obtain ⟨options, -, initialized⟩ := Result.bind_eq_ok.mp initialized
  obtain ⟨-, initialized⟩ := Result.seq_eq_ok.mp initialized
  obtain ⟨⟨draft, rotatedStream⟩, drafted, initialized⟩ := Result.bind_eq_ok.mp initialized
  obtain ⟨-, initialized⟩ := Result.seq_eq_ok.mp initialized
  cases initialized
  obtain ⟨sameInstallation, kept⟩ := draftConfig_kept distinct drafted
  refine ⟨sameInstallation, foundDistinct, fun target member pending => ?_⟩
  exact retainSpooled_kept (kept target member pending) pending

/-- An initialization leaves the stored configuration, or stores the one it found, with or
without the streams that lost their batches to the new target. -/
theorem init_stored (surroundings : Surroundings) (options : InitOptions)
    (existing : Option Config) :
    (init surroundings options existing).1 = existing ∨
      ∃ found, initConfig surroundings options existing = .ok found ∧
        ((init surroundings options existing).1 = some found.1 ∨
          (init surroundings options existing).1 =
            some (retainSpooled surroundings.spoolAfterwards found.1)) := by
  unfold init
  cases initConfig surroundings options existing with
  | error error => exact .inl rfl
  | ok found =>
      cases surroundings.written with
      | failed error => exact .inl rfl
      | unsynced error => exact .inr ⟨found, rfl, .inl rfl⟩
      | done =>
          refine .inr ⟨found, rfl, ?_⟩
          simp only [WriteOutcome.store]
          split
          · exact .inl rfl
          · exact .inl rfl
          · cases surroundings.rewritten with
            | done => exact .inr rfl
            | unsynced error => exact .inr rfl
            | failed error => exact .inl rfl

theorem setEnabled_stored (surroundings : Surroundings) (enabled : Bool)
    (existing : Option Config) :
    (setEnabled surroundings enabled existing).1 = existing ∨
      ∃ config, existing = some config ∧
        (setEnabled surroundings enabled existing).1 = some { config with enabled := enabled } := by
  unfold setEnabled
  cases surroundings.opened with
  | error error => exact .inl rfl
  | ok _ =>
      cases existing with
      | none => exact .inl rfl
      | some config =>
          cases surroundings.written with
          | failed error => exact .inl rfl
          | done => exact .inr ⟨config, rfl, rfl⟩
          | unsynced error => exact .inr ⟨config, rfl, rfl⟩

/-! ### Runs -/

theorem run_distinct (call : ConfigCall) {existing : Option Config}
    (distinct : ∀ config ∈ existing, config.Distinct) :
    ∀ config ∈ call.run existing, config.Distinct := by
  obtain ⟨surroundings, command⟩ := call
  cases command with
  | init options =>
      rcases init_stored surroundings options existing with
        same | ⟨found, initialized, stored | stored⟩
      · exact fun config isStored => distinct config (same ▸ isStored)
      · intro config isStored
        cases stored.symm.trans isStored
        exact initConfig_distinct initialized
      · intro config isStored
        cases stored.symm.trans isStored
        exact retainSpooled_distinct (initConfig_distinct initialized)
  | setEnabled enabled =>
      rcases setEnabled_stored surroundings enabled existing with same | ⟨old, isOld, stored⟩
      · exact fun config isStored => distinct config (same ▸ isStored)
      · intro config isStored
        cases stored.symm.trans isStored
        exact distinct old isOld

theorem run_follows (call : ConfigCall) {old : Config} (distinct : old.Distinct) :
    ∃ new, call.run (some old) = some new ∧ Follows call.MayMention old new := by
  obtain ⟨surroundings, command⟩ := call
  cases command with
  | init options =>
      rcases init_stored surroundings options (some old) with
        same | ⟨found, initialized, stored⟩
      · exact ⟨old, same, .refl distinct⟩
      · have follows := initConfig_follows distinct initialized
        rcases stored with stored | stored
        · exact ⟨found.1, stored, follows.installation, follows.distinct,
            fun target member pending => follows.kept target member pending.1⟩
        · exact ⟨_, stored, follows.installation, retainSpooled_distinct follows.distinct,
            fun target member pending =>
              retainSpooled_kept (follows.kept target member pending.1) pending.2⟩
  | setEnabled enabled =>
      rcases setEnabled_stored surroundings enabled (some old) with same | ⟨_, ⟨⟩, stored⟩
      · exact ⟨old, same, .refl distinct⟩
      · exact ⟨_, stored, rfl, distinct, fun _ member _ => member⟩

theorem runCalls_distinct (calls : List ConfigCall) {existing : Option Config}
    (distinct : ∀ config ∈ existing, config.Distinct) :
    ∀ config ∈ runCalls existing calls, config.Distinct := by
  induction calls generalizing existing with
  | nil => exact distinct
  | cons call calls ih => exact ih (run_distinct call distinct)

theorem runCalls_follows (calls : List ConfigCall) {old : Config} (distinct : old.Distinct) :
    ∃ new, runCalls (some old) calls = some new ∧
      Follows (fun streamId => ∀ call ∈ calls, call.MayMention streamId) old new := by
  induction calls generalizing old with
  | nil => exact ⟨old, rfl, .refl distinct⟩
  | cons call calls ih =>
      obtain ⟨next, ran, first⟩ := run_follows call distinct
      obtain ⟨new, ranRest, rest⟩ := ih first.distinct
      refine ⟨new, ?_, rest.installation.trans first.installation, rest.distinct, ?_⟩
      · rw [runCalls, List.foldl_cons, ran]
        exact ranRest
      · intro target member pending
        have kept := first.kept target member (pending call List.mem_cons_self)
        exact rest.kept target kept fun later isLater =>
          pending later (List.mem_cons_of_mem _ isLater)

/-- Every batch stays in the spool. -/
def spooling (newStreamId : String) : Surroundings where
  opened := .ok ()
  streamHasSpool := fun _ => .ok true
  newStreamId := newStreamId
  newInstallationId := "installation"
  now := 0
  written := .done
  bindUnassignedBatches := fun _ => .ok 1
  spoolAfterwards := fun _ => .ok true
  rewritten := .done

end SharedContext.LogService
