import SharedContext.TaskRuntime.BackfilledPrompts

/-!
# Runs of the prompt stash

Prompts are stashed for any number of Sessions, at any clock readings, while
calls create Tasks.  The limits always hold, each prompt reaches one Task at
most, and a failed call changes nothing.  A prompt answered Stashed is held
unless the clock stands before every row of a full table.
-/

namespace SharedContext

/-! ### One stash -/

def recordedTime (clock : Int) : Nat :=
  min clock.toNat (ordinalBound - 1)

def foundPrompts (db : RuntimeDatabase) (clock : Int) : List PendingPrompt :=
  unexpiredPrompts (recordedTime clock) db.pendingPromptSignal

def arrivingPrompt (db : RuntimeDatabase) (clock : Int) (locator : ExternalSessionLocator)
    (content : String) : PendingPrompt :=
  ⟨nextRowid (foundPrompts db clock), locator,
    nextPromptOrdinal (foundPrompts db clock) locator, content, recordedTime clock⟩

def withPrompt (db : RuntimeDatabase) (clock : Int) (locator : ExternalSessionLocator)
    (content : String) : RuntimeDatabase :=
  { db with
    pendingPromptSignal :=
      boundPendingPrompts (foundPrompts db clock ++ [arrivingPrompt db clock locator content]) }

/-- Whether a stash call writes its prompt. -/
structure WouldStash (db : RuntimeDatabase) (clock : Int) (locator : ExternalSessionLocator)
    (content : String) : Prop where
  epoch : 0 ≤ clock
  new : content ∉ readPendingPrompts (foundPrompts db clock) locator
  room : (readPendingPrompts (foundPrompts db clock) locator).length < maxPendingPromptSignals
  ordinal : nextPromptOrdinal (foundPrompts db clock) locator < ordinalBound

/-- Whether the table has room, or holds a row recorded no later than the clock. -/
def ArrivalOutranks (db : RuntimeDatabase) (clock : Int) : Prop :=
  (foundPrompts db clock).length < maxPendingPromptRows ∨
    ∃ other ∈ foundPrompts db clock, other.recordedAtUnixSeconds ≤ recordedTime clock

section Stash

variable {db after : RuntimeDatabase} {clock : Int} {locator : ExternalSessionLocator}
  {content : String} {outcome : PendingPromptOutcome}

theorem stashPendingPrompt_ok
    (ran : stashPendingPrompt db clock locator content = .ok (after, outcome)) :
    ((∃ pending, outcome = .stashed pending) ∧ WouldStash db clock locator content ∧
      after = withPrompt db clock locator content) ∨
    ((∀ pending, outcome ≠ .stashed pending) ∧ ¬ WouldStash db clock locator content ∧
      after = db) := by
  simp only [stashPendingPrompt, unixSeconds, Result.bind_eq_ok, Result.exists_unit,
    Result.require_eq_ok, Result.pure_eq_ok] at ran
  obtain ⟨_, ⟨epoch, rfl⟩, ran⟩ := ran
  split at ran
  · rename_i repeated
    cases ran
    exact Or.inr ⟨fun _ => by simp, fun would => would.new repeated, rfl⟩
  · rename_i new
    split at ran
    · rename_i full
      cases ran
      refine Or.inr ⟨fun _ => by simp, fun would => ?_, rfl⟩
      exact absurd would.room (not_lt_of_ge full)
    · rename_i room
      simp only [Result.bind_eq_ok, Result.exists_unit, Result.require_eq_ok,
        Result.pure_eq_ok] at ran
      obtain ⟨ordinal, made⟩ := ran
      cases made
      exact Or.inl ⟨⟨_, rfl⟩, ⟨epoch, new, not_le.mp room, ordinal⟩, rfl⟩

theorem stashPendingPrompt_of_would (would : WouldStash db clock locator content) :
    stashPendingPrompt db clock locator content = .ok (withPrompt db clock locator content,
      .stashed ((readPendingPrompts (foundPrompts db clock) locator).length + 1)) := by
  have epoch : unixSeconds clock = .ok clock.toNat :=
    Result.seq_eq_ok.mpr ⟨Result.require_eq_ok.mpr would.epoch, rfl⟩
  have new := would.new
  have room := would.room
  simp only [foundPrompts, recordedTime] at new room
  refine Result.bind_eq_ok.mpr ⟨clock.toNat, epoch, ?_⟩
  simp only
  rw [if_neg new, if_neg (not_le_of_gt room)]
  exact Result.seq_eq_ok.mpr ⟨Result.require_eq_ok.mpr would.ordinal, rfl⟩

theorem soundStash_found (sound : SoundStash db.pendingPromptSignal) (clock : Int) :
    SoundStash (foundPrompts db clock) :=
  sound.sublist List.filter_sublist

theorem arrives (sound : SoundStash db.pendingPromptSignal)
    (would : WouldStash db clock locator content) :
    PromptArrival (foundPrompts db clock) (arrivingPrompt db clock locator content) where
  sound := soundStash_found sound clock
  rowid := rfl
  promptOrdinal := rfl
  room := by
    have room := would.room
    rw [(soundStash_found sound clock).read_eq, List.length_map] at room
    exact room

theorem read_bounded (arrival : PromptArrival (foundPrompts db clock)
      (arrivingPrompt db clock locator content)) (other : ExternalSessionLocator) :
    (readPendingPrompts (boundPendingPrompts
        (foundPrompts db clock ++ [arrivingPrompt db clock locator content])) other).Sublist
      (readPendingPrompts (foundPrompts db clock) other ++
        if locator = other then [content] else []) := by
  rw [arrival.sound_bounded.read_eq, arrival.sound.read_eq]
  refine (((boundPendingPrompts_sublist _).filter _).map _).trans ?_
  rw [List.filter_append, List.map_append]
  refine List.Sublist.append_left ?_ _
  by_cases here : locator = other <;> simp [arrivingPrompt, here]

theorem read_found (sound : SoundStash db.pendingPromptSignal) (clock : Int)
    (other : ExternalSessionLocator) :
    (readPendingPrompts (foundPrompts db clock) other).Sublist
      (readPendingPrompts db.pendingPromptSignal other) := by
  have sublist : (foundPrompts db clock).Sublist db.pendingPromptSignal := List.filter_sublist
  rw [(soundStash_found sound clock).read_eq, sound.read_eq]
  exact (sublist.filter _).map _

theorem read_drained (prompts : List PendingPrompt) (other locator : ExternalSessionLocator) :
    readPendingPrompts (prompts.filter fun prompt => prompt.locator ≠ other) locator =
      if other = locator then [] else readPendingPrompts prompts locator := by
  rw [readPendingPrompts, List.filter_filter]
  by_cases here : other = locator
  · subst here
    have nothing : prompts.filter (fun prompt =>
        decide (prompt.locator = other) && decide (prompt.locator ≠ other)) = [] := by
      simp
    rw [nothing, if_pos rfl]
    rfl
  · have unchanged : prompts.filter (fun prompt =>
        decide (prompt.locator = locator) && decide (prompt.locator ≠ other)) =
        prompts.filter fun prompt => prompt.locator = locator := by
      apply List.filter_congr
      intro prompt _
      by_cases inSession : prompt.locator = locator
      · simp [inSession, Ne.symm here]
      · simp [inSession]
    rw [unchanged, if_neg here]
    rfl

theorem held_iff_outranks (sound : SoundStash db.pendingPromptSignal)
    (would : WouldStash db clock locator content) :
    content ∈ readPendingPrompts (boundPendingPrompts
        (foundPrompts db clock ++ [arrivingPrompt db clock locator content])) locator ↔
      ArrivalOutranks db clock := by
  have arrival := arrives sound would
  have rowKept := arrival.row_mem_bounded_iff
  change _ ↔ ArrivalOutranks db clock at rowKept
  rw [← rowKept, arrival.sound_bounded.read_eq]
  constructor
  · intro member
    obtain ⟨prompt, promptMem, sameContent⟩ := List.mem_map.mp member
    obtain ⟨kept, here⟩ := List.mem_filter.mp promptMem
    rcases List.mem_append.mp ((boundPendingPrompts_sublist _).subset kept) with old | isRow
    · -- another row of the Session would have repeated the prompt
      have read := would.new
      rw [arrival.sound.read_eq] at read
      refine absurd (List.mem_map.mpr ⟨prompt, List.mem_filter.mpr ⟨old, here⟩, sameContent⟩) read
    · rwa [List.mem_singleton.mp isRow] at kept
  · intro kept
    exact List.mem_map.mpr ⟨_, List.mem_filter.mpr ⟨kept, by simp [arrivingPrompt]⟩, rfl⟩

end Stash

/-! ### Runs -/

inductive StashCall
  | stash (locator : ExternalSessionLocator) (content : String) (clock : Int)
  | lineage (call : LineageCall)

inductive StashAnswer
  | stash (outcome : PendingPromptOutcome)
  | lineage (answer : LineageAnswer)

/-- A call, which the database itself may refuse (busy, full, interrupted before
its commit). -/
structure StashEvent where
  call : StashCall
  refusal : Option Error

structure StashExchange where
  event : StashEvent
  before : RuntimeDatabase
  response : Result StashAnswer
  after : RuntimeDatabase

section Runs

variable (text : IntentText)

def performStashCall (db : RuntimeDatabase) : StashCall → Result (RuntimeDatabase × StashAnswer)
  | .stash locator content clock =>
      (stashPendingPrompt db clock locator content).map (Prod.map id .stash)
  | .lineage call => (performCall text db call).map (Prod.map id .lineage)

/-- A failed call rolls back. -/
def StashEvent.exchange (db : RuntimeDatabase) (event : StashEvent) : StashExchange :=
  match event.refusal with
  | some error => ⟨event, db, .error error, db⟩
  | none =>
      match performStashCall text db event.call with
      | .ok (after, answer) => ⟨event, db, .ok answer, after⟩
      | .error error => ⟨event, db, .error error, db⟩

def stashLog (db : RuntimeDatabase) : List StashEvent → List StashExchange
  | [] => []
  | event :: rest =>
      event.exchange text db :: stashLog (event.exchange text db).after rest

end Runs

namespace StashExchange

/-- The Session, the own Signals and the Task, when the call created one. -/
def created (exchange : StashExchange) :
    Option (ExternalSessionLocator × List TaskSignal × TaskSessionSnapshot) :=
  match exchange.event.call, exchange.response with
  | .lineage call, .ok (.lineage answer) => createdTask call answer
  | _, _ => none

/-- The Session and the prompt, when the call answered Stashed. -/
def stashed (exchange : StashExchange) : Option (ExternalSessionLocator × String) :=
  match exchange.event.call, exchange.response with
  | .stash locator content _, .ok (.stash (.stashed _)) => some (locator, content)
  | _, _ => none

/-- What was stashed for a Session since a Task last took its prompts, after
another exchange. -/
def stashedNext (locator : ExternalSessionLocator) (earlier : List String)
    (exchange : StashExchange) : List String :=
  match exchange.created, exchange.stashed with
  | some (other, _), _ => if other = locator then [] else earlier
  | none, some (other, content) => if other = locator then earlier ++ [content] else earlier
  | none, none => earlier

/-- A prompt answered Stashed is held when the call returns. -/
def StashedIsHeld (exchange : StashExchange) : Prop :=
  ∀ locator content, exchange.stashed = some (locator, content) →
    content ∈ readPendingPrompts exchange.after.pendingPromptSignal locator

/-- Both limits hold when the call returns. -/
structure Bounded (exchange : StashExchange) : Prop where
  sessions : ∀ locator, (readPendingPrompts exchange.after.pendingPromptSignal locator).length ≤
    maxPendingPromptSignals
  rows : exchange.after.pendingPromptSignal.length ≤ maxPendingPromptRows

/-- A call that creates a Task makes the prompts held for its Session the first
Signals of that Task and holds them no longer; they were stashed, in this order,
since the last such call.  Other calls make no Signal. -/
def Delivers (stashedSince : ExternalSessionLocator → List String)
    (exchange : StashExchange) : Prop :=
  match exchange.created with
  | some (locator, signals, snapshot) =>
      (readPendingPrompts exchange.before.pendingPromptSignal locator).Sublist
          (stashedSince locator) ∧
        (∃ own, normalizeSignals signals = .ok own ∧
          Backfilled (readPendingPrompts exchange.before.pendingPromptSignal locator) own
            snapshot.taskSignals) ∧
        readPendingPrompts exchange.after.pendingPromptSignal locator = []
  | none => exchange.after.taskSignal = exchange.before.taskSignal

def KeepsOnFailure (exchange : StashExchange) : Prop :=
  ∀ error, exchange.response = .error error →
    exchange.after.pendingPromptSignal = exchange.before.pendingPromptSignal

/-- A stash call that would write finds room, or a row recorded no later than
its clock. -/
def Outranks (exchange : StashExchange) : Prop :=
  ∀ locator content clock, exchange.event.call = .stash locator content clock →
    exchange.event.refusal = none → WouldStash exchange.before clock locator content →
    ArrivalOutranks exchange.before clock

end StashExchange

/-- What was stashed for a Session since a Task last took its prompts. -/
def stashedSince (log : List StashExchange) (locator : ExternalSessionLocator) : List String :=
  log.foldl (StashExchange.stashedNext locator) []

/-- The stash keeps its limits and delivers its prompts, in every state of a run. -/
structure PromptsDelivered (log : List StashExchange) : Prop where
  bounded : ∀ exchange ∈ log, exchange.Bounded
  stashed : ∀ exchange ∈ log, exchange.StashedIsHeld
  delivered : ∀ earlier exchange later, log = earlier ++ exchange :: later →
    exchange.Delivers (stashedSince earlier)
  failed : ∀ exchange ∈ log, exchange.KeepsOnFailure

/-! ### One exchange -/

/-- What holds of the database in every state of a run. -/
structure StashInvariant (db : RuntimeDatabase) : Prop where
  consistent : db.lineages.Consistent
  sound : SoundStash db.pendingPromptSignal
  owned : SignalsOwned db

theorem stashInvariant_empty : StashInvariant .empty where
  consistent := Lineages.consistent_empty
  sound := soundStash_nil
  owned := fun _ member => absurd member List.not_mem_nil

section Steps

variable {text : IntentText} {db : RuntimeDatabase}

/-- The exchanges of an event: refused or failed, a stash that writes or not, or
a lineage call. -/
inductive Exchanged (text : IntentText) (db : RuntimeDatabase) : StashEvent → StashExchange → Prop
  | failed (event : StashEvent) (error : Error)
      (noStash : ∀ locator content clock, event.call = .stash locator content clock →
        event.refusal = none → ¬ WouldStash db clock locator content) :
      Exchanged text db event ⟨event, db, .error error, db⟩
  | stashed (locator : ExternalSessionLocator) (content : String) (clock : Int) (pending : Nat)
      (would : WouldStash db clock locator content) :
      Exchanged text db ⟨.stash locator content clock, none⟩
        ⟨⟨.stash locator content clock, none⟩, db, .ok (.stash (.stashed pending)),
          withPrompt db clock locator content⟩
  | passed (locator : ExternalSessionLocator) (content : String) (clock : Int)
      (outcome : PendingPromptOutcome) (notStashed : ∀ pending, outcome ≠ .stashed pending)
      (not : ¬ WouldStash db clock locator content) :
      Exchanged text db ⟨.stash locator content clock, none⟩
        ⟨⟨.stash locator content clock, none⟩, db, .ok (.stash outcome), db⟩
  | lineage (call : LineageCall) (answer : LineageAnswer) (after : RuntimeDatabase)
      (ran : performCall text db call = .ok (after, answer)) :
      Exchanged text db ⟨.lineage call, none⟩
        ⟨⟨.lineage call, none⟩, db, .ok (.lineage answer), after⟩

theorem exchanged (event : StashEvent) : Exchanged text db event (event.exchange text db) := by
  obtain ⟨call, refusal⟩ := event
  cases refusal with
  | some error => exact .failed _ error fun _ _ _ _ accepted => nomatch accepted
  | none =>
      simp only [StashEvent.exchange]
      split
      · rename_i after answer performed
        cases call with
        | stash locator content clock =>
            obtain ⟨⟨_, outcome⟩, ran, answerEq⟩ := Result.map_eq_ok.mp performed
            cases answerEq
            rcases stashPendingPrompt_ok ran with ⟨⟨pending, rfl⟩, would, rfl⟩ |
              ⟨notStashed, not, rfl⟩
            · exact .stashed locator content clock pending would
            · exact .passed locator content clock outcome notStashed not
        | lineage call =>
            obtain ⟨⟨_, answer⟩, ran, answerEq⟩ := Result.map_eq_ok.mp performed
            cases answerEq
            exact .lineage call answer _ ran
      · rename_i error performed
        refine .failed _ error fun locator content clock isStash _ would => ?_
        simp only at isStash
        subst isStash
        simp only [performStashCall, stashPendingPrompt_of_would would] at performed
        cases performed

variable {event : StashEvent} {exchange : StashExchange}

theorem Exchanged.before_eq (step : Exchanged text db event exchange) : exchange.before = db := by
  cases step <;> rfl

theorem Exchanged.event_eq (step : Exchanged text db event exchange) :
    exchange.event = event := by
  cases step <;> rfl

theorem Exchanged.invariant (step : Exchanged text db event exchange)
    (invariant : StashInvariant db) : StashInvariant exchange.after := by
  cases step with
  | failed => exact invariant
  | passed => exact invariant
  | stashed locator content clock pending would =>
      exact ⟨invariant.consistent, (arrives invariant.sound would).sound_bounded, invariant.owned⟩
  | lineage call answer after ran =>
      refine ⟨(performCall_ok ran invariant.consistent).1.consistent, ?_,
        signalsOwned_performCall ran invariant.consistent invariant.owned⟩
      have prompts := performCall_prompts ran
      split at prompts
      · have drained := prompts.drained
        simp only
        rw [drained]
        exact invariant.sound.sublist List.filter_sublist
      · simp only
        rw [prompts.prompts]
        exact invariant.sound

theorem StashInvariant.bounded (invariant : StashInvariant exchange.after) : exchange.Bounded where
  sessions locator := by
    rw [invariant.sound.read_eq, List.length_map]
    exact invariant.sound.sessions locator
  rows := invariant.sound.rows

theorem Exchanged.held_sublist (step : Exchanged text db event exchange)
    (invariant : StashInvariant db) {locator : ExternalSessionLocator} {earlier : List String}
    (held : (readPendingPrompts db.pendingPromptSignal locator).Sublist earlier) :
    (readPendingPrompts exchange.after.pendingPromptSignal locator).Sublist
      (exchange.stashedNext locator earlier) := by
  cases step with
  | failed event error =>
      obtain ⟨call, refusal⟩ := event
      cases call <;> exact held
  | passed other content clock outcome notStashed =>
      cases outcome with
      | stashed pending => exact absurd rfl (notStashed pending)
      | alreadyPending => exact held
      | full => exact held
  | stashed other content clock pending would =>
      have arrival := arrives invariant.sound would
      refine (read_bounded arrival locator).trans ?_
      have found := (read_found invariant.sound clock locator).trans held
      simp only [StashExchange.stashedNext, StashExchange.created, StashExchange.stashed]
      by_cases here : other = locator
      · rw [if_pos here, if_pos here]
        exact found.append (List.Sublist.refl _)
      · rw [if_neg here, if_neg here, List.append_nil]
        exact found
  | lineage call answer after ran =>
      have prompts := performCall_prompts ran
      simp only [StashExchange.stashedNext, StashExchange.created, StashExchange.stashed]
      cases created : createdTask call answer with
      | none =>
          rw [created] at prompts
          rw [prompts.prompts]
          exact held
      | some task =>
          obtain ⟨other, signals, snapshot⟩ := task
          rw [created] at prompts
          simp only at prompts ⊢
          rw [prompts.drained, read_drained]
          split
          · exact .slnil
          · exact held

theorem Exchanged.delivers (step : Exchanged text db event exchange)
    (invariant : StashInvariant db) {stashed : ExternalSessionLocator → List String}
    (held : ∀ locator, (readPendingPrompts db.pendingPromptSignal locator).Sublist
      (stashed locator)) : exchange.Delivers stashed := by
  cases step with
  | failed event error =>
      obtain ⟨call, refusal⟩ := event
      cases call <;> rfl
  | passed => rfl
  | stashed => rfl
  | lineage call answer after ran =>
      have prompts := performCall_prompts ran
      simp only [StashExchange.Delivers, StashExchange.created]
      cases created : createdTask call answer with
      | none =>
          rw [created] at prompts
          exact prompts.signals
      | some task =>
          obtain ⟨locator, signals, snapshot⟩ := task
          rw [created] at prompts
          refine ⟨held locator, prompts.delivered invariant.owned, ?_⟩
          rw [prompts.drained, read_drained, if_pos rfl]

theorem Exchanged.keepsOnFailure (step : Exchanged text db event exchange) :
    exchange.KeepsOnFailure := by
  intro error failed
  cases step with
  | failed => rfl
  | passed => cases failed
  | stashed => cases failed
  | lineage => cases failed

theorem Exchanged.stashedIsHeld_iff (step : Exchanged text db event exchange)
    (invariant : StashInvariant db) : exchange.StashedIsHeld ↔ exchange.Outranks := by
  cases step with
  | failed event error noStash =>
      constructor
      · intro _ locator content clock isStash accepted would
        exact absurd would (noStash locator content clock isStash accepted)
      · intro _ locator content stashed
        obtain ⟨call, refusal⟩ := event
        cases call <;> cases stashed
  | passed other content clock outcome notStashed not =>
      constructor
      · intro _ locator content clock isStash _ would
        cases isStash
        exact absurd would not
      · intro _ locator content stashed
        cases outcome with
        | stashed pending => exact absurd rfl (notStashed pending)
        | alreadyPending => cases stashed
        | full => cases stashed
  | stashed other content clock pending would =>
      have outranks := held_iff_outranks invariant.sound would
      constructor
      · intro held locator content clock isStash _ _
        cases isStash
        exact outranks.mp (held _ _ rfl)
      · intro outranked locator content stashed
        cases stashed
        exact outranks.mpr (outranked _ _ _ rfl rfl would)
  | lineage call answer after ran =>
      constructor
      · intro _ locator content clock isStash
        cases isStash
      · intro _ locator content stashed
        cases stashed

end Steps

/-! ### Whole runs -/

section Whole

variable {text : IntentText} {db : RuntimeDatabase} {events : List StashEvent}

theorem exchange_of_mem_log (invariant : StashInvariant db) {exchange : StashExchange}
    (member : exchange ∈ stashLog text db events) :
    ∃ event, StashInvariant exchange.before ∧
      Exchanged text exchange.before event exchange := by
  induction events generalizing db with
  | nil => exact absurd member List.not_mem_nil
  | cons event rest ih =>
      have step : Exchanged text db event _ := exchanged event
      rcases List.mem_cons.mp member with rfl | later
      · refine ⟨event, ?_, ?_⟩
        · rw [step.before_eq]
          exact invariant
        · rw [step.before_eq]
          exact step
      · exact ih (step.invariant invariant) later

theorem held_before_sublist (invariant : StashInvariant db) {locator : ExternalSessionLocator}
    {held : List String}
    (heldNow : (readPendingPrompts db.pendingPromptSignal locator).Sublist held)
    {earlier later : List StashExchange} {exchange : StashExchange}
    (splits : stashLog text db events = earlier ++ exchange :: later) :
    (readPendingPrompts exchange.before.pendingPromptSignal locator).Sublist
      (earlier.foldl (StashExchange.stashedNext locator) held) := by
  induction events generalizing db held earlier with
  | nil => simp [stashLog] at splits
  | cons event rest ih =>
      have step : Exchanged text db event _ := exchanged event
      cases earlier with
      | nil =>
          obtain ⟨rfl, _⟩ := List.cons.inj splits
          rw [step.before_eq]
          exact heldNow
      | cons first others =>
          obtain ⟨rfl, restSplits⟩ := List.cons.inj splits
          exact ih (step.invariant invariant) (step.held_sublist invariant heldNow) restSplits

/-- In every run from an empty store, prompts are bounded and delivered, and a
prompt answered Stashed is held, exactly when each stash call that writes finds
room or a row recorded no later than its clock. -/
theorem prompts_delivered_iff_outrank (text : IntentText) (events : List StashEvent) :
    PromptsDelivered (stashLog text .empty events) ↔
      ∀ exchange ∈ stashLog text .empty events, exchange.Outranks := by
  constructor
  · intro delivered exchange member
    obtain ⟨event, invariant, step⟩ := exchange_of_mem_log stashInvariant_empty member
    exact (step.stashedIsHeld_iff invariant).mp (delivered.stashed exchange member)
  · intro outranks
    refine ⟨?_, ?_, ?_, ?_⟩
    · intro exchange member
      obtain ⟨event, invariant, step⟩ := exchange_of_mem_log stashInvariant_empty member
      exact (step.invariant invariant).bounded
    · intro exchange member
      obtain ⟨event, invariant, step⟩ := exchange_of_mem_log stashInvariant_empty member
      exact (step.stashedIsHeld_iff invariant).mpr (outranks exchange member)
    · intro earlier exchange later splits
      have member : exchange ∈ stashLog text .empty events := by
        rw [splits]
        simp
      obtain ⟨event, invariant, step⟩ := exchange_of_mem_log stashInvariant_empty member
      refine step.delivers invariant fun locator => ?_
      exact held_before_sublist stashInvariant_empty (List.Sublist.refl _) splits
    · intro exchange member
      obtain ⟨event, invariant, step⟩ := exchange_of_mem_log stashInvariant_empty member
      exact step.keepsOnFailure

end Whole

/-! ### A clock that is set back -/

section SetBack

variable (text : IntentText)

def stashRun (db : RuntimeDatabase) (events : List StashEvent) : RuntimeDatabase :=
  events.foldl (fun db event => (event.exchange text db).after) db

theorem stashLog_append (db : RuntimeDatabase) (events more : List StashEvent) :
    stashLog text db (events ++ more) =
      stashLog text db events ++ stashLog text (stashRun text db events) more := by
  induction events generalizing db with
  | nil => rfl
  | cons event rest ih =>
      rw [List.cons_append, stashLog, ih]
      rfl

def numberedSession (number : Nat) : ExternalSessionLocator :=
  ⟨"codex", String.ofList (List.replicate number 'a')⟩

theorem numberedSession_injective : Function.Injective numberedSession := by
  intro first second same
  have sameKey := congrArg (fun locator => locator.externalSessionId.toList.length) same
  simpa [numberedSession] using sameKey

def stashFor (number : Nat) (clock : Int) : StashEvent :=
  ⟨.stash (numberedSession number) "p" clock, none⟩

/-- One prompt for each of the first Sessions, all recorded at one time. -/
structure OnePromptEach (number : Nat) (db : RuntimeDatabase) : Prop where
  length : db.pendingPromptSignal.length = number
  recorded : ∀ prompt ∈ db.pendingPromptSignal, prompt.recordedAtUnixSeconds = 1000
  sessions : ∀ prompt ∈ db.pendingPromptSignal, ∃ earlier < number,
    prompt.locator = numberedSession earlier

variable {text}

theorem OnePromptEach.found {number : Nat} {db : RuntimeDatabase} (filled : OnePromptEach number db)
    {clock : Int} (positive : 0 ≤ clock) (recent : clock ≤ 1000) :
    foundPrompts db clock = db.pendingPromptSignal := by
  apply List.filter_eq_self.mpr
  intro prompt member
  have time : recordedTime clock ≤ 1000 := by
    unfold recordedTime
    omega
  have age : pendingPromptMaxAgeSeconds = 172800 := rfl
  simp only [filled.recorded prompt member, age, decide_eq_true_eq]
  omega

theorem OnePromptEach.wouldStash {number : Nat} {db : RuntimeDatabase}
    (filled : OnePromptEach number db) (clock : Int) (positive : 0 ≤ clock)
    (recent : clock ≤ 1000) : WouldStash db clock (numberedSession number) "p" := by
  have noRow : (foundPrompts db clock).filter
      (fun prompt => prompt.locator = numberedSession number) = [] := by
    rw [filled.found positive recent, List.filter_eq_nil_iff]
    intro prompt member
    obtain ⟨earlier, isEarlier, session⟩ := filled.sessions prompt member
    have different : earlier ≠ number := by omega
    simpa [session] using fun same => different (numberedSession_injective same)
  have nothing : readPendingPrompts (foundPrompts db clock) (numberedSession number) = [] := by
    rw [readPendingPrompts, noRow]
    rfl
  refine ⟨positive, ?_, ?_, ?_⟩
  · rw [nothing]
    exact List.not_mem_nil
  · rw [nothing]
    decide
  · rw [nextPromptOrdinal, noRow]
    decide

theorem exchange_stashFor {number : Nat} {db : RuntimeDatabase} {clock : Int}
    (would : WouldStash db clock (numberedSession number) "p") :
    ((stashFor number clock).exchange text db).after =
      withPrompt db clock (numberedSession number) "p" := by
  simp only [StashEvent.exchange, stashFor, performStashCall, stashPendingPrompt_of_would would]
  rfl

theorem OnePromptEach.next {number : Nat} {db : RuntimeDatabase} (filled : OnePromptEach number db)
    (room : number < maxPendingPromptRows) :
    OnePromptEach (number + 1) ((stashFor number 1000).exchange text db).after := by
  have would := filled.wouldStash 1000 (by decide) (by decide)
  have rows : (withPrompt db 1000 (numberedSession number) "p").pendingPromptSignal =
      db.pendingPromptSignal ++ [arrivingPrompt db 1000 (numberedSession number) "p"] := by
    have excess : (db.pendingPromptSignal ++
        [arrivingPrompt db 1000 (numberedSession number) "p"]).length - maxPendingPromptRows =
        0 := by
      rw [List.length_append, filled.length, List.length_singleton]
      omega
    rw [withPrompt, filled.found (by decide) (by decide), boundPendingPrompts, excess,
      dropLeast_zero]
  rw [exchange_stashFor would]
  refine ⟨?_, ?_, ?_⟩
  · rw [rows, List.length_append, filled.length, List.length_singleton]
  · intro prompt member
    rw [rows] at member
    rcases List.mem_append.mp member with old | new
    · exact filled.recorded prompt old
    · rw [List.mem_singleton.mp new]
      rfl
  · intro prompt member
    rw [rows] at member
    rcases List.mem_append.mp member with old | new
    · obtain ⟨earlier, isEarlier, session⟩ := filled.sessions prompt old
      exact ⟨earlier, by omega, session⟩
    · rw [List.mem_singleton.mp new]
      exact ⟨number, by omega, rfl⟩

theorem onePromptEach_run (number : Nat) (bounded : number ≤ maxPendingPromptRows) :
    OnePromptEach number
      (stashRun text .empty ((List.range number).map (stashFor · 1000))) := by
  induction number with
  | zero =>
      exact ⟨rfl, fun _ member => absurd member List.not_mem_nil,
        fun _ member => absurd member List.not_mem_nil⟩
  | succ number ih =>
      have earlier := ih (by omega)
      rw [List.range_succ, List.map_append, stashRun, List.foldl_append]
      exact earlier.next (by omega)

/-- A full table recorded at one time, and one prompt more a second earlier. -/
def setBackEvents : List StashEvent :=
  (List.range maxPendingPromptRows).map (stashFor · 1000) ++ [stashFor maxPendingPromptRows 999]

/-- The prompt that arrives after the clock was set back is answered Stashed and
dropped in the same call. -/
theorem set_back_prompt_dropped :
    ¬ PromptsDelivered (stashLog sampleIntentText .empty setBackEvents) := by
  intro delivered
  let filled := stashRun sampleIntentText .empty
    ((List.range maxPendingPromptRows).map (stashFor · 1000))
  have each : OnePromptEach maxPendingPromptRows filled := onePromptEach_run _ le_rfl
  have would := each.wouldStash 999 (by decide) (by decide)
  have member : (stashFor maxPendingPromptRows 999).exchange sampleIntentText filled ∈
      stashLog sampleIntentText .empty setBackEvents := by
    rw [setBackEvents, stashLog_append]
    exact List.mem_append_right _ (List.mem_singleton_self _)
  obtain ⟨event, invariant, step⟩ := exchange_of_mem_log stashInvariant_empty member
  have outranks := (step.stashedIsHeld_iff invariant).mp (delivered.stashed _ member)
  have beforeEq : ((stashFor maxPendingPromptRows 999).exchange sampleIntentText filled).before =
      filled := (exchanged _).before_eq
  have eventEq : ((stashFor maxPendingPromptRows 999).exchange sampleIntentText filled).event =
      stashFor maxPendingPromptRows 999 := (exchanged _).event_eq
  have outranked := outranks (numberedSession maxPendingPromptRows) "p" 999
    (by rw [eventEq]; rfl) (by rw [eventEq]; rfl) (by rw [beforeEq]; exact would)
  rw [beforeEq, ArrivalOutranks, each.found (by decide) (by decide), each.length] at outranked
  rcases outranked with room | ⟨other, otherMem, noLater⟩
  · exact lt_irrefl _ room
  · rw [each.recorded other otherMem] at noLater
    exact absurd noLater (by decide)

end SetBack

end SharedContext
