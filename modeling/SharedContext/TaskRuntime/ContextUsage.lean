import Mathlib.Data.Prod.Lex
import Mathlib.Order.WithBot
import SharedContext.Library.Upsert
import SharedContext.TaskRuntime.Lineages

/-!
# Context usage verdicts

What a Task did with a Context that was injected into it.  Checkpoints upsert
a verdict that never lowers the stored one, and the close of a Session fills in
a verdict where there is none.  Together they keep the greatest verdict written
for each Context and Task, in whatever order the calls come.
-/

namespace SharedContext

/-- What one Task did with a Context that was injected into it. -/
inductive ContextUsageOutcome
  | ignored
  | reused
  | refuted
  deriving DecidableEq, Repr

/-- Higher wins when two writes disagree about the same pair. -/
def ContextUsageOutcome.priority : ContextUsageOutcome → Nat
  | .ignored => 0
  | .reused => 1
  | .refuted => 2

/-- The expression that reads a stored outcome's priority. -/
def ContextUsageOutcome.prioritySql : ContextUsageOutcome → Nat
  | .refuted => 2
  | .reused => 1
  | _ => 0

theorem ContextUsageOutcome.prioritySql_eq (outcome : ContextUsageOutcome) :
    outcome.prioritySql = outcome.priority := by
  cases outcome <;> rfl

theorem ContextUsageOutcome.priority_injective : Function.Injective priority := by
  intro first second same
  cases first <;> cases second <;> first | rfl | exact absurd same (by decide)

instance : LinearOrder ContextUsageOutcome :=
  LinearOrder.lift' ContextUsageOutcome.priority ContextUsageOutcome.priority_injective

theorem ContextUsageOutcome.le_iff {first second : ContextUsageOutcome} :
    first ≤ second ↔ first.priority ≤ second.priority :=
  Iff.rfl

theorem ContextUsageOutcome.ignored_le (outcome : ContextUsageOutcome) : .ignored ≤ outcome :=
  Nat.zero_le _

/-- Whether a verdict is only the absence of evidence at a Session's close. -/
inductive UsageBasis
  | sessionClose
  | checkpointDerived
  deriving DecidableEq, Repr

def UsageBasis.rank : UsageBasis → Nat
  | .sessionClose => 0
  | .checkpointDerived => 1

theorem UsageBasis.rank_injective : Function.Injective rank := by
  intro first second same
  cases first <;> cases second <;> first | rfl | exact absurd same (by decide)

instance : LinearOrder UsageBasis :=
  LinearOrder.lift' UsageBasis.rank UsageBasis.rank_injective

theorem UsageBasis.sessionClose_le (basis : UsageBasis) : .sessionClose ≤ basis :=
  Nat.zero_le _

theorem UsageBasis.sessionClose_lt : UsageBasis.sessionClose < .checkpointDerived :=
  Nat.zero_lt_one

theorem UsageBasis.le_checkpoint (basis : UsageBasis) : basis ≤ .checkpointDerived := by
  cases basis with
  | sessionClose => exact Nat.zero_le _
  | checkpointDerived => exact le_rfl

structure UsagePair where
  contextId : ContextId
  taskId : TaskId
  deriving DecidableEq, Repr

structure ContextUsageRow where
  pair : UsagePair
  outcome : ContextUsageOutcome
  basis : UsageBasis
  recordedAtUnixSeconds : Nat
  deriving DecidableEq, Repr

structure TaskInjectionRow where
  pair : UsagePair
  deriving DecidableEq, Repr

abbrev ContextUsage := Table ContextUsageRow ContextUsageRow.pair

/-- The other tables these calls read, as they are when a call runs. -/
structure UsageTables where
  lineages : Lineages
  taskInjection : Table TaskInjectionRow TaskInjectionRow.pair

/-- One usage decision derived from a Checkpoint or Confirmation. -/
structure ContextUsageRecord where
  pair : UsagePair
  outcome : ContextUsageOutcome
  deriving DecidableEq, Repr

/-! ### The two writers -/

section Writers

variable (tables : UsageTables)

/-- The pairs injected into Tasks of a Session. -/
def injectedPairs (locator : ExternalSessionLocator) : List UsagePair :=
  (tables.taskInjection.rows.filter fun injection =>
    tables.lineages.taskSession.rows.any fun task =>
      decide (task.taskId = injection.pair.taskId) &&
        tables.lineages.externalSession.rows.any fun session =>
          decide (session.externalSessionId = task.externalSessionId ∧
            session.locator = locator)).map (·.pair)

/-- Fill in missing verdicts for every Task of a Session; the result counts the
rows written.  `commits` says whether the database accepts the statement. -/
def recordSessionCloseUsageAt (commits : Bool) (usage : ContextUsage)
    (locator : ExternalSessionLocator) (nowUnixSeconds : Nat) : Result (Nat × ContextUsage) := do
  locator.validate
  Result.require (nowUnixSeconds < ordinalBound)
    (invalid "Session close usage timestamp exceeds the supported range")
  Result.require commits (sqlError "record conservative Session close usage" "disk I/O error")
  let missing := (injectedPairs tables locator).filter fun pair =>
    (usage.find? pair).isNone
  pure (missing.length, missing.foldl (fun usage pair =>
    usage.insertMissing ⟨pair, .ignored, .sessionClose, nowUnixSeconds⟩) usage)

/-- Whether the guard of the upsert lets a record change the stored row. -/
def ContextUsageRecord.overwrites (record : ContextUsageRecord) (stored : ContextUsageRow) : Bool :=
  stored.outcome.prioritySql ≤ record.outcome.priority

/-- Upsert one record; the count is the number of rows changed. -/
def upsertContextUsage (recordedAt : Nat) (usage : ContextUsage) (record : ContextUsageRecord) :
    Nat × ContextUsage :=
  let row : ContextUsageRow := ⟨record.pair, record.outcome, .checkpointDerived, recordedAt⟩
  let written := match usage.find? record.pair with
    | some stored => if record.overwrites stored then 1 else 0
    | none => 1
  (written, usage.upsert row record.overwrites
    (fun stored =>
      { stored with
        outcome := row.outcome
        basis := row.basis
        recordedAtUnixSeconds := row.recordedAtUnixSeconds })
    (fun _ => rfl))

def ContextUsageRecord.KnownTask (record : ContextUsageRecord) : Prop :=
  ∃ task ∈ tables.lineages.taskSession.rows, task.taskId = record.pair.taskId

instance (record : ContextUsageRecord) : Decidable (record.KnownTask tables) :=
  inferInstanceAs (Decidable (∃ task ∈ _, _))

/-- The foreign key refuses a record of an unknown Task. -/
def writeContextUsage (recordedAt : Nat) (state : Nat × ContextUsage)
    (record : ContextUsageRecord) : Result (Nat × ContextUsage) := do
  Result.require (record.KnownTask tables)
    (sqlError "record Context usage" "FOREIGN KEY constraint failed")
  let (written, usage) := upsertContextUsage recordedAt state.2 record
  pure (state.1 + written, usage)

def recordContextUsageAt (commits : Bool) (usage : ContextUsage)
    (records : List ContextUsageRecord) (nowUnixSeconds : Nat) :
    Result (Nat × ContextUsage) := do
  if records.isEmpty then
    pure (0, usage)
  else
    Result.require (nowUnixSeconds < ordinalBound)
      (invalid "Context usage timestamp exceeds the supported range")
    let state ← records.foldlM (writeContextUsage tables nowUnixSeconds) (0, usage)
    Result.require commits (sqlError "commit Context usage record" "disk I/O error")
    pure state

end Writers

/-! ### Calls -/

inductive UsageCall
  | recordContextUsage (records : List ContextUsageRecord) (nowUnixSeconds : Nat)
  | recordSessionCloseUsage (locator : ExternalSessionLocator) (nowUnixSeconds : Nat)

/-- A call, with what it finds in the other tables and whether the database
accepts it. -/
structure UsageEvent where
  tables : UsageTables
  call : UsageCall
  commits : Bool

def UsageEvent.perform (event : UsageEvent) (usage : ContextUsage) : Result (Nat × ContextUsage) :=
  match event.call with
  | .recordContextUsage records now =>
      recordContextUsageAt event.tables event.commits usage records now
  | .recordSessionCloseUsage locator now =>
      recordSessionCloseUsageAt event.tables event.commits usage locator now

/-- A failed call leaves the table. -/
def UsageEvent.step (usage : ContextUsage) (event : UsageEvent) : ContextUsage :=
  match event.perform usage with
  | .ok (_, after) => after
  | .error _ => usage

def runUsage (usage : ContextUsage) (events : List UsageEvent) : ContextUsage :=
  events.foldl UsageEvent.step usage

structure UsageVerdict where
  pair : UsagePair
  outcome : ContextUsageOutcome
  basis : UsageBasis
  deriving DecidableEq, Repr

/-- The verdicts of a call that succeeds.  The close of a Session gives one to
each injected pair that has none. -/
def UsageEvent.verdicts (usage : ContextUsage) (event : UsageEvent) : List UsageVerdict :=
  match event.perform usage, event.call with
  | .error _, _ => []
  | .ok _, .recordContextUsage records _ =>
      records.map fun record => ⟨record.pair, record.outcome, .checkpointDerived⟩
  | .ok _, .recordSessionCloseUsage locator _ =>
      ((injectedPairs event.tables locator).filter fun pair =>
        (usage.find? pair).isNone).map fun pair => ⟨pair, .ignored, .sessionClose⟩

def usageVerdicts (usage : ContextUsage) : List UsageEvent → List UsageVerdict
  | [] => []
  | event :: rest => event.verdicts usage ++ usageVerdicts (event.step usage) rest

/-! ### What a call writes -/

/-- Whether a call succeeds, whatever the table of verdicts holds. -/
def UsageEvent.Accepted (event : UsageEvent) : Prop :=
  match event.call with
  | .recordContextUsage records now =>
      records = [] ∨
        now < ordinalBound ∧ (∀ record ∈ records, record.KnownTask event.tables) ∧
          event.commits = true
  | .recordSessionCloseUsage locator now =>
      locator.validate = .ok () ∧ now < ordinalBound ∧ event.commits = true

def UsageEvent.written (event : UsageEvent) (usage : ContextUsage) : ContextUsage :=
  match event.call with
  | .recordContextUsage records now =>
      records.foldl (fun usage record => (upsertContextUsage now usage record).2) usage
  | .recordSessionCloseUsage locator now =>
      ((injectedPairs event.tables locator).filter fun pair => (usage.find? pair).isNone).foldl
        (fun usage pair => usage.insertMissing ⟨pair, .ignored, .sessionClose, now⟩) usage

section Steps

variable {tables : UsageTables} {usage : ContextUsage}

private theorem writeContextUsage_ok {record : ContextUsageRecord} (recordedAt : Nat)
    (state : Nat × ContextUsage) (known : record.KnownTask tables) :
    ∃ count, writeContextUsage tables recordedAt state record =
      .ok (count, (upsertContextUsage recordedAt state.2 record).2) := by
  refine ⟨_, Result.seq_eq_ok.mpr ⟨Result.require_eq_ok.mpr known, rfl⟩⟩

private theorem foldlM_writeContextUsage {records : List ContextUsageRecord} (recordedAt : Nat)
    (state : Nat × ContextUsage) (known : ∀ record ∈ records, record.KnownTask tables) :
    ∃ count, records.foldlM (writeContextUsage tables recordedAt) state =
      .ok (count, records.foldl
        (fun usage record => (upsertContextUsage recordedAt usage record).2) state.2) := by
  induction records generalizing state with
  | nil => exact ⟨state.1, rfl⟩
  | cons record rest ih =>
      have headKnown := known record List.mem_cons_self
      have tailKnown : ∀ other ∈ rest, other.KnownTask tables :=
        fun other member => known other (List.mem_cons_of_mem _ member)
      obtain ⟨written, writeEq⟩ := writeContextUsage_ok recordedAt state headKnown
      obtain ⟨count, restEq⟩ := ih (written, (upsertContextUsage recordedAt state.2 record).2)
        tailKnown
      refine ⟨count, ?_⟩
      rw [List.foldlM_cons, writeEq]
      exact restEq

private theorem knownTask_of_foldlM {recordedAt : Nat} {records : List ContextUsageRecord}
    {state after : Nat × ContextUsage}
    (written : records.foldlM (writeContextUsage tables recordedAt) state = .ok after) :
    ∀ record ∈ records, record.KnownTask tables := by
  induction records generalizing state with
  | nil => simp
  | cons record rest ih =>
      rw [List.foldlM_cons] at written
      obtain ⟨middle, headOk, tailOk⟩ := Result.bind_eq_ok.mp written
      have headKnown := Result.require_eq_ok.mp (Result.seq_eq_ok.mp headOk).1
      intro other member
      rcases List.mem_cons.mp member with rfl | member
      · exact headKnown
      · exact ih tailOk other member

theorem UsageEvent.perform_accepted {event : UsageEvent} (accepted : event.Accepted)
    (usage : ContextUsage) : ∃ count, event.perform usage = .ok (count, event.written usage) := by
  obtain ⟨tables, call, commits⟩ := event
  cases call with
  | recordContextUsage records now =>
      simp only [Accepted] at accepted
      simp only [perform, recordContextUsageAt, written]
      by_cases empty : records = []
      · subst empty
        exact ⟨0, rfl⟩
      · obtain ⟨inRange, known, commitsEq⟩ := accepted.resolve_left empty
        obtain ⟨count, foldEq⟩ := foldlM_writeContextUsage now (0, usage) known
        refine ⟨count, ?_⟩
        rw [if_neg (by simpa using empty)]
        exact Result.seq_eq_ok.mpr ⟨Result.require_eq_ok.mpr inRange,
          Result.bind_eq_ok.mpr ⟨_, foldEq,
            Result.seq_eq_ok.mpr ⟨Result.require_eq_ok.mpr commitsEq, rfl⟩⟩⟩
  | recordSessionCloseUsage locator now =>
      obtain ⟨valid, inRange, commitsEq⟩ := accepted
      refine ⟨_, Result.seq_eq_ok.mpr ⟨valid, Result.seq_eq_ok.mpr
        ⟨Result.require_eq_ok.mpr inRange, Result.seq_eq_ok.mpr
          ⟨Result.require_eq_ok.mpr commitsEq, rfl⟩⟩⟩⟩

theorem UsageEvent.accepted_of_perform {event : UsageEvent} {usage : ContextUsage}
    {result : Nat × ContextUsage} (performed : event.perform usage = .ok result) :
    event.Accepted := by
  obtain ⟨tables, call, commits⟩ := event
  cases call with
  | recordContextUsage records now =>
      simp only [perform, recordContextUsageAt] at performed
      by_cases empty : records = []
      · exact Or.inl empty
      · rw [if_neg (by simpa using empty)] at performed
        obtain ⟨inRange, rest⟩ := Result.seq_eq_ok.mp performed
        obtain ⟨state, foldEq, rest⟩ := Result.bind_eq_ok.mp rest
        have commitsEq := (Result.seq_eq_ok.mp rest).1
        exact Or.inr ⟨Result.require_eq_ok.mp inRange, knownTask_of_foldlM foldEq,
          Result.require_eq_ok.mp commitsEq⟩
  | recordSessionCloseUsage locator now =>
      obtain ⟨valid, rest⟩ := Result.seq_eq_ok.mp performed
      obtain ⟨inRange, rest⟩ := Result.seq_eq_ok.mp rest
      exact ⟨valid, Result.require_eq_ok.mp inRange,
        Result.require_eq_ok.mp (Result.seq_eq_ok.mp rest).1⟩

open Classical in
theorem UsageEvent.step_eq (event : UsageEvent) (usage : ContextUsage) :
    event.step usage = if event.Accepted then event.written usage else usage := by
  split
  · rename_i accepted
    obtain ⟨count, performed⟩ := perform_accepted accepted usage
    rw [step, performed]
  · rename_i refused
    cases performed : event.perform usage with
    | ok result => exact absurd (accepted_of_perform performed) refused
    | error error => rw [step, performed]

end Steps

/-! ### Evidence -/

/-- The evidence of a verdict: what a Checkpoint derived is stronger than what a
Session's close left out, and no row is the weakest. -/
abbrev UsageEvidence := WithBot (UsageBasis ×ₗ ContextUsageOutcome)

def usageEvidence (basis : UsageBasis) (outcome : ContextUsageOutcome) : UsageEvidence :=
  ((toLex (basis, outcome) : UsageBasis ×ₗ ContextUsageOutcome) : UsageEvidence)

def ContextUsageRow.evidence (row : ContextUsageRow) : UsageEvidence :=
  usageEvidence row.basis row.outcome

def storedEvidence (usage : ContextUsage) (pair : UsagePair) : UsageEvidence :=
  match usage.find? pair with
  | some row => row.evidence
  | none => ⊥

theorem storedEvidence_some {usage : ContextUsage} {pair : UsagePair} {row : ContextUsageRow}
    (found : usage.find? pair = some row) : storedEvidence usage pair = row.evidence := by
  rw [storedEvidence, found]

theorem storedEvidence_none {usage : ContextUsage} {pair : UsagePair}
    (missing : usage.find? pair = none) : storedEvidence usage pair = ⊥ := by
  rw [storedEvidence, missing]

theorem usageEvidence_le {firstBasis secondBasis : UsageBasis}
    {firstOutcome secondOutcome : ContextUsageOutcome} :
    usageEvidence firstBasis firstOutcome ≤ usageEvidence secondBasis secondOutcome ↔
      firstBasis < secondBasis ∨ firstBasis = secondBasis ∧ firstOutcome ≤ secondOutcome := by
  rw [usageEvidence, usageEvidence, WithBot.coe_le_coe, Prod.Lex.toLex_le_toLex]

theorem omitted_le (basis : UsageBasis) (outcome : ContextUsageOutcome) :
    usageEvidence .sessionClose .ignored ≤ usageEvidence basis outcome := by
  rw [usageEvidence_le]
  cases basis with
  | sessionClose => exact Or.inr ⟨rfl, outcome.ignored_le⟩
  | checkpointDerived => exact Or.inl UsageBasis.sessionClose_lt

/-- What a row can say: a close only ever leaves the verdict that nothing was
seen. -/
def Possible (evidence : UsageEvidence) : Prop :=
  evidence ≤ usageEvidence .sessionClose .ignored ∨
    usageEvidence .checkpointDerived .ignored ≤ evidence

def ClosesIgnored (usage : ContextUsage) : Prop :=
  ∀ pair, Possible (storedEvidence usage pair)

theorem Possible.max {first second : UsageEvidence} (firstPossible : Possible first)
    (secondPossible : Possible second) : Possible (max first second) := by
  rcases max_choice first second with left | right
  · rw [left]
    exact firstPossible
  · rw [right]
    exact secondPossible

theorem possible_checkpoint (outcome : ContextUsageOutcome) :
    Possible (usageEvidence .checkpointDerived outcome) :=
  Or.inr (usageEvidence_le.mpr (Or.inr ⟨rfl, outcome.ignored_le⟩))

theorem Possible.ignored {outcome : ContextUsageOutcome}
    (possible : Possible (usageEvidence .sessionClose outcome)) : outcome = .ignored := by
  simp only [Possible, usageEvidence_le, lt_irrefl, false_or, true_and] at possible
  rcases possible with weak | beyond | differs
  · exact le_antisymm weak outcome.ignored_le
  · exact absurd beyond (not_lt_of_ge (UsageBasis.sessionClose_le _))
  · exact absurd differs.1 (by decide)

theorem storedEvidence_upsert {usage : ContextUsage} (sound : ClosesIgnored usage)
    (recordedAt : Nat) (record : ContextUsageRecord) (pair : UsagePair) :
    storedEvidence (upsertContextUsage recordedAt usage record).2 pair =
      max (storedEvidence usage pair)
        (if pair = record.pair then usageEvidence .checkpointDerived record.outcome else ⊥) := by
  simp only [storedEvidence, upsertContextUsage, Table.find?_upsert]
  by_cases same : pair = record.pair
  · simp only [if_pos same]
    cases found : usage.find? pair with
    | none => simp [ContextUsageRow.evidence]
    | some stored =>
        simp only [Option.map_some, Option.getD_some]
        by_cases overwrites : record.overwrites stored = true
        · have raised : stored.outcome ≤ record.outcome := by
            simpa [ContextUsageRecord.overwrites, ContextUsageOutcome.prioritySql_eq,
              ContextUsageOutcome.le_iff] using overwrites
          have weaker : stored.evidence ≤ usageEvidence .checkpointDerived record.outcome := by
            refine usageEvidence_le.mpr ?_
            cases stored.basis with
            | sessionClose => exact Or.inl UsageBasis.sessionClose_lt
            | checkpointDerived => exact Or.inr ⟨rfl, raised⟩
          rw [if_pos overwrites, max_eq_right weaker, ContextUsageRow.evidence]
        · have lowered : record.outcome < stored.outcome := by
            refine lt_of_not_ge fun raised => overwrites ?_
            simpa [ContextUsageRecord.overwrites, ContextUsageOutcome.prioritySql_eq,
              ContextUsageOutcome.le_iff] using raised
          -- a row that blocks an upsert is not one that a close left
          have basisEq : stored.basis = .checkpointDerived := by
            cases basis : stored.basis with
            | checkpointDerived => rfl
            | sessionClose =>
                have possible := sound pair
                simp only [storedEvidence, found, ContextUsageRow.evidence, basis] at possible
                rw [possible.ignored] at lowered
                exact absurd lowered (not_lt_of_ge record.outcome.ignored_le)
          have stronger : usageEvidence .checkpointDerived record.outcome ≤ stored.evidence :=
            usageEvidence_le.mpr (Or.inr ⟨basisEq.symm, lowered.le⟩)
          rw [if_neg overwrites, max_eq_left stronger]
  · simp [same]

theorem storedEvidence_insertMissing (usage : ContextUsage) (pair wanted : UsagePair)
    (recordedAt : Nat) :
    storedEvidence (usage.insertMissing ⟨pair, .ignored, .sessionClose, recordedAt⟩) wanted =
      max (storedEvidence usage wanted)
        (if wanted = pair then usageEvidence .sessionClose .ignored else ⊥) := by
  simp only [storedEvidence, Table.find?_insertMissing]
  by_cases same : wanted = pair
  · simp only [if_pos same]
    cases found : usage.find? wanted with
    | none => simp [ContextUsageRow.evidence]
    | some stored => exact (max_eq_left (omitted_le stored.basis stored.outcome)).symm
  · simp [same]

/-! ### The evidence of a call -/

def ContextUsageRecord.evidence (pair : UsagePair) (record : ContextUsageRecord) : UsageEvidence :=
  if pair = record.pair then usageEvidence .checkpointDerived record.outcome else ⊥

open Classical in
/-- The evidence a call has about a pair, whatever the table holds. -/
noncomputable def UsageEvent.evidence (pair : UsagePair) (event : UsageEvent) : UsageEvidence :=
  if event.Accepted then
    match event.call with
    | .recordContextUsage records _ => joined (ContextUsageRecord.evidence pair) ⊥ records
    | .recordSessionCloseUsage locator _ =>
        if pair ∈ injectedPairs event.tables locator then
          usageEvidence .sessionClose .ignored
        else ⊥
  else ⊥

theorem possible_recordEvidence (pair : UsagePair) (record : ContextUsageRecord) :
    Possible (record.evidence pair) := by
  unfold ContextUsageRecord.evidence
  split
  · exact possible_checkpoint record.outcome
  · exact Or.inl bot_le

theorem possible_joined {start : UsageEvidence} (startPossible : Possible start)
    (pair : UsagePair) (records : List ContextUsageRecord) :
    Possible (joined (ContextUsageRecord.evidence pair) start records) := by
  rcases @joined_mem _ _ _ (ContextUsageRecord.evidence pair) start records with same | event
  · rw [same]
    exact startPossible
  · obtain ⟨record, _, same⟩ := event
    rw [same]
    exact possible_recordEvidence pair record

theorem possible_eventEvidence (pair : UsagePair) (event : UsageEvent) :
    Possible (event.evidence pair) := by
  unfold UsageEvent.evidence
  split
  · split
    · exact possible_joined (Or.inl bot_le) pair _
    · split
      · exact Or.inl le_rfl
      · exact Or.inl bot_le
  · exact Or.inl bot_le

theorem storedEvidence_upserts {usage : ContextUsage} (sound : ClosesIgnored usage)
    (recordedAt : Nat) (records : List ContextUsageRecord) (pair : UsagePair) :
    storedEvidence (records.foldl
        (fun usage record => (upsertContextUsage recordedAt usage record).2) usage) pair =
      joined (ContextUsageRecord.evidence pair) (storedEvidence usage pair) records := by
  induction records generalizing usage with
  | nil => rfl
  | cons record rest ih =>
      have headSound : ClosesIgnored (upsertContextUsage recordedAt usage record).2 := by
        intro other
        rw [storedEvidence_upsert sound]
        exact (sound other).max (possible_recordEvidence other record)
      rw [List.foldl_cons, ih headSound, storedEvidence_upsert sound]
      rfl

def omittedEvidence (pair other : UsagePair) : UsageEvidence :=
  if pair = other then usageEvidence .sessionClose .ignored else ⊥

theorem storedEvidence_closes (usage : ContextUsage) (recordedAt : Nat) (pairs : List UsagePair)
    (pair : UsagePair) :
    storedEvidence (pairs.foldl (fun usage pair =>
        usage.insertMissing ⟨pair, .ignored, .sessionClose, recordedAt⟩) usage) pair =
      joined (omittedEvidence pair) (storedEvidence usage pair) pairs := by
  induction pairs generalizing usage with
  | nil => rfl
  | cons first rest ih =>
      rw [List.foldl_cons, ih, storedEvidence_insertMissing]
      rfl

theorem joined_omittedEvidence (pair : UsagePair) (pairs : List UsagePair) :
    joined (omittedEvidence pair) ⊥ pairs =
      if pair ∈ pairs then usageEvidence .sessionClose .ignored else ⊥ := by
  split
  · rename_i member
    have self : omittedEvidence pair pair = usageEvidence .sessionClose .ignored := if_pos rfl
    refine le_antisymm (joined_le bot_le fun other _ => ?_) (self ▸ le_joined member)
    unfold omittedEvidence
    split
    · exact le_rfl
    · exact bot_le
  · rename_i absent
    refine le_bot_iff.mp (joined_le le_rfl fun other member => ?_)
    have differs : pair ≠ other := by
      rintro rfl
      exact absent member
    exact (if_neg differs).le

theorem storedEvidence_step {usage : ContextUsage} (sound : ClosesIgnored usage)
    (event : UsageEvent) (pair : UsagePair) :
    storedEvidence (event.step usage) pair =
      max (storedEvidence usage pair) (event.evidence pair) := by
  rw [UsageEvent.step_eq, UsageEvent.evidence]
  by_cases accepted : event.Accepted
  · rw [if_pos accepted, if_pos accepted, UsageEvent.written]
    split
    · rw [storedEvidence_upserts sound, joined_eq_max]
    · rename_i locator now _
      rw [storedEvidence_closes, joined_eq_max, joined_omittedEvidence]
      by_cases injected : pair ∈ injectedPairs event.tables locator
      · simp only [List.mem_filter, injected, true_and, if_true]
        -- a pair that has a row is passed over, and a row is never weaker
        cases found : usage.find? pair with
        | none => simp
        | some stored =>
            have weaker : usageEvidence .sessionClose .ignored ≤ storedEvidence usage pair := by
              rw [storedEvidence_some found]
              exact omitted_le stored.basis stored.outcome
            simp [max_eq_left weaker]
      · simp [injected]
  · simp [accepted]

theorem ClosesIgnored.step {usage : ContextUsage} (sound : ClosesIgnored usage)
    (event : UsageEvent) : ClosesIgnored (event.step usage) := by
  intro pair
  rw [storedEvidence_step sound]
  exact (sound pair).max (possible_eventEvidence pair event)

theorem closesIgnored_empty : ClosesIgnored .empty :=
  fun _ => Or.inl bot_le

theorem storedEvidence_run {usage : ContextUsage} (sound : ClosesIgnored usage)
    (events : List UsageEvent) (pair : UsagePair) :
    storedEvidence (runUsage usage events) pair =
      joined (UsageEvent.evidence pair) (storedEvidence usage pair) events := by
  induction events generalizing usage with
  | nil => rfl
  | cons event rest ih =>
      have tail := ih (sound.step event)
      rw [storedEvidence_step sound] at tail
      exact tail

/-! ### The verdicts of a run -/

def UsageVerdict.evidence (pair : UsagePair) (verdict : UsageVerdict) : UsageEvidence :=
  if pair = verdict.pair then usageEvidence verdict.basis verdict.outcome else ⊥

theorem UsageVerdict.evidence_of_pair {pair : UsagePair} {verdict : UsageVerdict}
    (same : verdict.pair = pair) :
    verdict.evidence pair = usageEvidence verdict.basis verdict.outcome :=
  if_pos same.symm

theorem storedEvidence_verdicts {usage : ContextUsage} (sound : ClosesIgnored usage)
    (event : UsageEvent) (pair : UsagePair) :
    storedEvidence (event.step usage) pair =
      joined (UsageVerdict.evidence pair) (storedEvidence usage pair) (event.verdicts usage) := by
  by_cases accepted : event.Accepted
  · obtain ⟨count, performed⟩ := UsageEvent.perform_accepted accepted usage
    rw [UsageEvent.step_eq, if_pos accepted, UsageEvent.written, UsageEvent.verdicts, performed]
    cases event.call with
    | recordContextUsage records now =>
        rw [storedEvidence_upserts sound]
        simp only [joined_map]
        rfl
    | recordSessionCloseUsage locator now =>
        rw [storedEvidence_closes]
        simp only [joined_map]
        rfl
  · rw [UsageEvent.step_eq, if_neg accepted, UsageEvent.verdicts]
    cases performed : event.perform usage with
    | ok result => exact absurd (UsageEvent.accepted_of_perform performed) accepted
    | error error => rfl

theorem storedEvidence_usageVerdicts {usage : ContextUsage} (sound : ClosesIgnored usage)
    (events : List UsageEvent) (pair : UsagePair) :
    storedEvidence (runUsage usage events) pair =
      joined (UsageVerdict.evidence pair) (storedEvidence usage pair)
        (usageVerdicts usage events) := by
  induction events generalizing usage with
  | nil => rfl
  | cons event rest ih =>
      have tail := ih (sound.step event)
      rw [storedEvidence_verdicts sound] at tail
      rw [usageVerdicts, joined_append]
      exact tail

theorem ignored_of_mem_verdicts {usage : ContextUsage} {event : UsageEvent}
    {verdict : UsageVerdict} (member : verdict ∈ event.verdicts usage)
    (closed : verdict.basis = .sessionClose) : verdict.outcome = .ignored := by
  unfold UsageEvent.verdicts at member
  split at member
  · exact absurd member List.not_mem_nil
  · obtain ⟨record, _, rfl⟩ := List.mem_map.mp member
    exact absurd closed UsageBasis.noConfusion
  · obtain ⟨pair, _, rfl⟩ := List.mem_map.mp member
    rfl

theorem ignored_of_mem_usageVerdicts {usage : ContextUsage} {events : List UsageEvent}
    {verdict : UsageVerdict} (member : verdict ∈ usageVerdicts usage events)
    (closed : verdict.basis = .sessionClose) : verdict.outcome = .ignored := by
  induction events generalizing usage with
  | nil => exact absurd member List.not_mem_nil
  | cons event rest ih =>
      rcases List.mem_append.mp member with here | later
      · exact ignored_of_mem_verdicts here closed
      · exact ih later

/-- What is stored of a pair, but for the time of writing. -/
def judgement (usage : ContextUsage) (pair : UsagePair) :
    Option (ContextUsageOutcome × UsageBasis) :=
  (usage.find? pair).map fun row => (row.outcome, row.basis)

theorem judgement_eq_of_evidence {first second : ContextUsage} {pair : UsagePair}
    (same : storedEvidence first pair = storedEvidence second pair) :
    judgement first pair = judgement second pair := by
  unfold judgement
  cases firstFound : first.find? pair with
  | none =>
      cases secondFound : second.find? pair with
      | none => rfl
      | some row =>
          rw [storedEvidence_none firstFound, storedEvidence_some secondFound] at same
          exact absurd same WithBot.bot_ne_coe
  | some row =>
      cases secondFound : second.find? pair with
      | none =>
          rw [storedEvidence_some firstFound, storedEvidence_none secondFound] at same
          exact absurd same WithBot.coe_ne_bot
      | some other =>
          rw [storedEvidence_some firstFound, storedEvidence_some secondFound] at same
          have equal : (row.basis, row.outcome) = (other.basis, other.outcome) :=
            WithBot.coe_injective same
          simp only [Prod.mk.injEq] at equal
          simp [equal.1, equal.2]

theorem row_repeats_verdict {events : List UsageEvent} {pair : UsagePair} {row : ContextUsageRow}
    (found : (runUsage .empty events).find? pair = some row) :
    (∃ verdict ∈ usageVerdicts .empty events,
      verdict.pair = pair ∧ verdict.basis = row.basis ∧ verdict.outcome = row.outcome) ∧
    ∀ verdict ∈ usageVerdicts .empty events, verdict.pair = pair →
      verdict.basis < row.basis ∨ verdict.basis = row.basis ∧ verdict.outcome ≤ row.outcome := by
  have stored := storedEvidence_usageVerdicts closesIgnored_empty events pair
  rw [storedEvidence_some found] at stored
  constructor
  · have cases := @joined_mem _ _ _ (UsageVerdict.evidence pair)
      (storedEvidence .empty pair) (usageVerdicts .empty events)
    rcases cases with empty | ⟨verdict, member, same⟩
    · exact absurd (stored.trans empty) WithBot.coe_ne_bot
    · rw [← stored] at same
      by_cases about : pair = verdict.pair
      · rw [UsageVerdict.evidence_of_pair about.symm] at same
        have equal : (row.basis, row.outcome) = (verdict.basis, verdict.outcome) :=
          WithBot.coe_injective same
        simp only [Prod.mk.injEq] at equal
        exact ⟨verdict, member, about.symm, equal.1.symm, equal.2.symm⟩
      · rw [UsageVerdict.evidence, if_neg about] at same
        exact absurd same WithBot.coe_ne_bot
  · intro verdict member about
    have bounded := @le_joined _ _ _ (UsageVerdict.evidence pair)
      (storedEvidence .empty pair) _ _ member
    rw [UsageVerdict.evidence_of_pair about] at bounded
    exact usageEvidence_le.mp (bounded.trans stored.ge)

theorem find?_eq_none_iff_unjudged (events : List UsageEvent) (pair : UsagePair) :
    (runUsage .empty events).find? pair = none ↔
      ∀ verdict ∈ usageVerdicts .empty events, verdict.pair ≠ pair := by
  constructor
  · intro missing verdict member about
    have stored := storedEvidence_usageVerdicts closesIgnored_empty events pair
    rw [storedEvidence_none missing] at stored
    have bounded := @le_joined _ _ _ (UsageVerdict.evidence pair)
      (storedEvidence .empty pair) _ _ member
    rw [UsageVerdict.evidence_of_pair about] at bounded
    exact absurd (le_bot_iff.mp (bounded.trans stored.ge)) WithBot.coe_ne_bot
  · intro unjudged
    cases found : (runUsage .empty events).find? pair with
    | none => rfl
    | some row =>
        obtain ⟨verdict, member, about, _⟩ := (row_repeats_verdict found).1
        exact absurd about (unjudged verdict member)

theorem row_outcome_greatest {events : List UsageEvent} {pair : UsagePair}
    {row : ContextUsageRow} (found : (runUsage .empty events).find? pair = some row) :
    IsGreatest {outcome | ∃ verdict ∈ usageVerdicts .empty events,
      verdict.pair = pair ∧ verdict.outcome = outcome} row.outcome := by
  obtain ⟨⟨verdict, member, about, _, sameOutcome⟩, strongest⟩ := row_repeats_verdict found
  refine ⟨⟨verdict, member, about, sameOutcome⟩, ?_⟩
  rintro outcome ⟨other, otherMember, otherAbout, rfl⟩
  rcases strongest other otherMember otherAbout with weaker | ⟨_, outcomeLe⟩
  · -- a weaker basis is that of a close
    have closed : other.basis = .sessionClose := by
      cases basis : other.basis with
      | sessionClose => rfl
      | checkpointDerived => exact absurd (basis ▸ weaker) (not_lt_of_ge row.basis.le_checkpoint)
    rw [ignored_of_mem_usageVerdicts otherMember closed]
    exact row.outcome.ignored_le
  · exact outcomeLe

theorem row_basis_iff {events : List UsageEvent} {pair : UsagePair} {row : ContextUsageRow}
    (found : (runUsage .empty events).find? pair = some row) :
    row.basis = .checkpointDerived ↔ ∃ verdict ∈ usageVerdicts .empty events,
      verdict.pair = pair ∧ verdict.basis = .checkpointDerived := by
  obtain ⟨⟨verdict, member, about, sameBasis, _⟩, strongest⟩ := row_repeats_verdict found
  constructor
  · intro derived
    exact ⟨verdict, member, about, sameBasis.trans derived⟩
  · rintro ⟨other, otherMember, otherAbout, derived⟩
    rcases strongest other otherMember otherAbout with weaker | ⟨same, _⟩
    · exact absurd (derived ▸ weaker) (not_lt_of_ge row.basis.le_checkpoint)
    · exact same.symm.trans derived

theorem mem_usageVerdicts_append {usage : ContextUsage} {events : List UsageEvent}
    {verdict : UsageVerdict} (member : verdict ∈ usageVerdicts usage events)
    (more : List UsageEvent) : verdict ∈ usageVerdicts usage (events ++ more) := by
  induction events generalizing usage with
  | nil => exact absurd member List.not_mem_nil
  | cons event rest ih =>
      rcases List.mem_append.mp member with here | later
      · exact List.mem_append_left _ here
      · exact List.mem_append_right _ (ih later)

theorem outcome_rises {events : List UsageEvent} {pair : UsagePair} {row : ContextUsageRow}
    (found : (runUsage .empty events).find? pair = some row) (more : List UsageEvent) :
    ∃ later, (runUsage .empty (events ++ more)).find? pair = some later ∧
      row.outcome ≤ later.outcome := by
  obtain ⟨⟨verdict, member, about, _, sameOutcome⟩, _⟩ := row_repeats_verdict found
  have stillMember := mem_usageVerdicts_append member more
  cases laterFound : (runUsage .empty (events ++ more)).find? pair with
  | none =>
      have unjudged := (find?_eq_none_iff_unjudged _ pair).mp laterFound
      exact absurd about (unjudged verdict stillMember)
  | some later =>
      exact ⟨later, rfl, (row_outcome_greatest laterFound).2
        ⟨verdict, stillMember, about, sameOutcome⟩⟩

/-- Whatever calls run on a new table, and whatever the other tables hold
meanwhile, the verdict of each pair is the greatest written for it; the basis is
a Checkpoint exactly when one wrote a verdict; the order of the calls does not
matter; and further calls only raise the outcome. -/
theorem usage_verdicts_rise (events : List UsageEvent) (pair : UsagePair) :
    ((runUsage .empty events).find? pair = none ↔
      ∀ verdict ∈ usageVerdicts .empty events, verdict.pair ≠ pair) ∧
    (∀ row, (runUsage .empty events).find? pair = some row →
      IsGreatest {outcome | ∃ verdict ∈ usageVerdicts .empty events,
        verdict.pair = pair ∧ verdict.outcome = outcome} row.outcome ∧
      (row.basis = .checkpointDerived ↔ ∃ verdict ∈ usageVerdicts .empty events,
        verdict.pair = pair ∧ verdict.basis = .checkpointDerived)) ∧
    (∀ reordered, events.Perm reordered →
      judgement (runUsage .empty reordered) pair = judgement (runUsage .empty events) pair) ∧
    ∀ more row, (runUsage .empty events).find? pair = some row →
      ∃ later, (runUsage .empty (events ++ more)).find? pair = some later ∧
        row.outcome ≤ later.outcome := by
  refine ⟨find?_eq_none_iff_unjudged events pair, ?_, ?_, ?_⟩
  · intro row found
    exact ⟨row_outcome_greatest found, row_basis_iff found⟩
  · intro reordered perm
    apply judgement_eq_of_evidence
    rw [storedEvidence_run closesIgnored_empty, storedEvidence_run closesIgnored_empty]
    exact (joined_perm perm).symm
  · intro more row found
    exact outcome_rises found more

end SharedContext
