import Mathlib.Data.Int.Interval
import SharedContext.LogService.HookWindow

/-!
# Hook decisions over a run of the collector

A run records decisions, checkpoints the counts and reloads them.  While every
decision and its hour have room, and nothing is reloaded that is not saved, the
counts are exact over the window; memory is bounded in any case.
-/

namespace SharedContext.LogService

open Telemetry

/-! ### Runs -/

/-- How a checkpoint ends: a failure may come after the file was replaced. -/
inductive CheckpointEnd
  | written
  | unacknowledged
  | failed
  deriving DecidableEq

structure CollectorState where
  checkpoint : Option HookDiagnostics
  accumulator : HookDiagnosticAccumulator
  deriving DecidableEq

namespace CollectorState

/-- A collector that finds no checkpoint. -/
def start (now : Int) : CollectorState :=
  ⟨none, HookDiagnosticAccumulator.load none now⟩

def writeCheckpoint (state : CollectorState) (ending : CheckpointEnd) : CollectorState :=
  if state.accumulator.dirty then
    match ending with
    | .written =>
        { checkpoint := some state.accumulator.diagnostics
          accumulator :=
            { state.accumulator with
              lastCheckpointUnixMs := state.accumulator.diagnostics.updatedAtUnixMs
              dirty := false } }
    | .unacknowledged => { state with checkpoint := some state.accumulator.diagnostics }
    | .failed => state
  else state

def checkpointIfDue (state : CollectorState) (now : Int) (ending : CheckpointEnd) :
    CollectorState :=
  if state.accumulator.dirty ∧
      checkpointMs ≤ saturateI64 (now - state.accumulator.lastCheckpointUnixMs) then
    state.writeCheckpoint ending
  else state

end CollectorState

/-- The steps of a run, with the readings of the clock. -/
inductive HookStep
  | record (source : Event) (now : Int)
  | checkpoint (ending : CheckpointEnd)
  | checkpointIfDue (now : Int) (ending : CheckpointEnd)
  | reload (now : Int) (readable : Bool)

namespace CollectorState

def step (state : CollectorState) : HookStep → CollectorState
  | .record source now =>
      match state.accumulator.record source now with
      | .ok accumulator => { state with accumulator }
      | .error _ => state
  | .checkpoint ending => state.writeCheckpoint ending
  | .checkpointIfDue now ending => state.checkpointIfDue now ending
  | .reload now readable =>
      { state with
        accumulator :=
          HookDiagnosticAccumulator.load (if readable then state.checkpoint else none) now }

def run (state : CollectorState) (steps : List HookStep) : CollectorState :=
  steps.foldl step state

end CollectorState

/-! ### What a run records -/

def IsHookDecision (source : Event) : Prop :=
  source.entryPoint = .hook ∧ source.kind = .hookDecision

instance (source : Event) : Decidable (IsHookDecision source) :=
  inferInstanceAs (Decidable (_ ∧ _))

/-- The hour of the bucket that a decision is counted in. -/
def decisionHour (source : Event) (now : Int) : Int :=
  hourOf (Int64.ofInt (clampedTime now source.normalized)).toInt

def decisionReason (source : Event) : String :=
  source.normalized.reason.getD "unspecified"

/-- The hours of the decisions that a run records. -/
def recordedHours : List HookStep → List Int
  | [] => []
  | .record source now :: rest =>
      if IsHookDecision source then decisionHour source now :: recordedHours rest
      else recordedHours rest
  | _ :: rest => recordedHours rest

/-- The reading of the clock at which the window was last moved on. -/
def lastReading : Int → List HookStep → Int
  | reading, [] => reading
  | reading, .record source now :: rest =>
      lastReading (if IsHookDecision source then now else reading) rest
  | _, .reload now _ :: rest => lastReading now rest
  | reading, _ :: rest => lastReading reading rest

def HookStep.reading? : HookStep → Option Int
  | .record _ now => some now
  | .checkpoint _ => none
  | .checkpointIfDue now _ => some now
  | .reload now _ => some now

def Clocked : Int → List HookStep → Prop
  | clock, [] => 0 ≤ clock ∧ clock ≤ i64Max
  | clock, step :: rest =>
      0 ≤ clock ∧ clock ≤ (step.reading?.getD clock) ∧ Clocked (step.reading?.getD clock) rest

instance : (clock : Int) → (steps : List HookStep) → Decidable (Clocked clock steps)
  | _, [] => inferInstanceAs (Decidable (_ ∧ _))
  | clock, step :: rest =>
      have := instDecidableClocked (step.reading?.getD clock) rest
      inferInstanceAs (Decidable (_ ∧ _ ∧ _))

/-- There is room for a decision and for its hour; and what is reloaded was saved. -/
def HasRoom (state : CollectorState) : HookStep → Prop
  | .record source now =>
      KeyRoom source.outcome (decisionReason source)
        (bucketCounts (decisionHour source now) state.accumulator.diagnostics.hourly) ∧
      ((openHours (decisionHour source now) (hours state.accumulator.diagnostics.hourly)).filter
        fun hour => InWindow now hour).length ≤ maxBuckets
  | .reload _ readable => readable = true ∧ state.accumulator.dirty = false
  | _ => True

/-- Every step of a run has room in the state before it. -/
def Roomy : CollectorState → List HookStep → Prop
  | _, [] => True
  | state, step :: rest => HasRoom state step ∧ Roomy (state.step step) rest

instance (state : CollectorState) : (step : HookStep) → Decidable (HasRoom state step)
  | .record _ _ => inferInstanceAs (Decidable (_ ∧ _))
  | .reload _ _ => inferInstanceAs (Decidable (_ ∧ _))
  | .checkpoint _ => .isTrue trivial
  | .checkpointIfDue _ _ => .isTrue trivial

instance : (state : CollectorState) → (steps : List HookStep) → Decidable (Roomy state steps)
  | _, [] => .isTrue trivial
  | state, step :: rest =>
      have := instDecidableRoomy (state.step step) rest
      inferInstanceAs (Decidable (_ ∧ _))

structure HookDiagnostics.Bounded (diagnostics : HookDiagnostics) : Prop where
  recent : diagnostics.recentEvents.length ≤ maxRecent
  buckets : diagnostics.hourly.length ≤ maxBuckets
  keys : ∀ bucket ∈ diagnostics.hourly, bucket.counts.length ≤ maxKeysPerBucket

/-- The counts are those of the recorded decisions whose hours are inside the window. -/
structure HookDiagnostics.ExactFor (diagnostics : HookDiagnostics) (recorded : List Int)
    (reading : Int) : Prop where
  total : diagnostics.total = recorded.countP fun hour => InWindow reading hour
  counts : (diagnostics.counts.map HookReasonCount.count).sum = diagnostics.total
  kept : ∀ hour ∈ recorded, InWindow reading hour → ∃ bucket ∈ diagnostics.hourly,
    bucket.hourUnixMs = hour ∧ countTotal bucket.counts = recorded.count hour

/-! ### Recording -/

theorem clampedTime_bounds {now : Int} (positive : 0 ≤ now) (fits : now ≤ i64Max) (event : Event) :
    now - windowMs ≤ (Int64.ofInt (clampedTime now event)).toInt ∧
      (Int64.ofInt (clampedTime now event)).toInt ≤ saturateI64 (now + futureSkewMs) := by
  unfold clampedTime saturateI64 windowMs futureSkewMs i64Min i64Max at *
  rw [Int64.toInt_ofInt_of_le (by omega) (by omega)]
  omega

theorem inWindow_decisionHour {now : Int} (positive : 0 ≤ now) (fits : now ≤ i64Max)
    (source : Event) : InWindow now (decisionHour source now) := by
  obtain ⟨recent, notAhead⟩ := clampedTime_bounds positive fits source.normalized
  unfold InWindow decisionHour hourOf
  generalize (Int64.ofInt (clampedTime now source.normalized)).toInt = time at *
  unfold saturateI64 windowMs futureSkewMs hourMs i64Min i64Max at *
  omega

def countedHourly (hourly : List HourlyBucket) (source : Event) (now : Int) : List HourlyBucket :=
  updateBucket (decisionHour source now) (countDecision source.outcome (decisionReason source))
    hourly

def recentWith (recent : List Event) (source : Event) (now : Int) : List Event :=
  let recent := recent ++ [{ source.normalized with
    occurredAtUnixMs := Int64.ofInt (clampedTime now source.normalized) }]
  recent.drop (recent.length - maxRecent)

/-- The diagnostics with one more decision, before they are rebuilt. -/
def countedDiagnostics (diagnostics : HookDiagnostics) (source : Event) (now : Int) :
    HookDiagnostics :=
  { diagnostics with
    hourly := countedHourly diagnostics.hourly source now
    recentEvents := recentWith diagnostics.recentEvents source now }

theorem record_of_decision {source : Event} (decision : IsHookDecision source)
    (accumulator : HookDiagnosticAccumulator) (now : Int) :
    accumulator.record source now = .ok
      { accumulator with
        diagnostics :=
          { rebuildCounts (countedDiagnostics accumulator.diagnostics source now) now with
            updatedAtUnixMs := now }
        dirty := true } := by
  have accepted : Result.require (source.entryPoint = .hook ∧ source.kind = .hookDecision)
      notAHookDecision = .ok () := Result.require_eq_ok.mpr decision
  unfold HookDiagnosticAccumulator.record
  rw [accepted]
  rfl

theorem record_of_other {source : Event} (other : ¬ IsHookDecision source)
    (accumulator : HookDiagnosticAccumulator) (now : Int) :
    accumulator.record source now = .error notAHookDecision := by
  have refused : Result.require (source.entryPoint = .hook ∧ source.kind = .hookDecision)
      notAHookDecision = .error notAHookDecision := if_neg other
  unfold HookDiagnosticAccumulator.record
  rw [refused]
  rfl

/-! ### Memory is bounded -/

theorem bounded_rebuildCounts {diagnostics : HookDiagnostics}
    (recent : diagnostics.recentEvents.length ≤ maxRecent)
    (keys : ∀ bucket ∈ diagnostics.hourly, bucket.counts.length ≤ maxKeysPerBucket) (now : Int) :
    (rebuildCounts diagnostics now).Bounded where
  recent := recent
  buckets := List.length_take_le _ _
  keys bucket member := keys bucket (retainedBuckets_subset member).1

theorem HookDiagnostics.Bounded.updated {diagnostics : HookDiagnostics}
    (bounded : diagnostics.Bounded) (now : Int) :
    ({ diagnostics with updatedAtUnixMs := now } : HookDiagnostics).Bounded :=
  ⟨bounded.recent, bounded.buckets, bounded.keys⟩

theorem length_updateBucket_le {hour : Int} {update : List BucketCount → List BucketCount}
    {hourly : List HourlyBucket}
    (keeps : ∀ counts : List BucketCount, counts.length ≤ maxKeysPerBucket →
      (update counts).length ≤ maxKeysPerBucket)
    (bounded : ∀ bucket ∈ hourly, bucket.counts.length ≤ maxKeysPerBucket) :
    ∀ bucket ∈ updateBucket hour update hourly, bucket.counts.length ≤ maxKeysPerBucket := by
  induction hourly with
  | nil =>
      intro bucket member
      rw [updateBucket, List.mem_singleton] at member
      subst member
      exact keeps [] (Nat.zero_le _)
  | cons first rest ih =>
      rw [List.forall_mem_cons] at bounded
      rw [updateBucket]
      split
      · exact List.forall_mem_cons.mpr ⟨keeps _ bounded.1, bounded.2⟩
      · exact List.forall_mem_cons.mpr ⟨bounded.1, ih bounded.2⟩

theorem length_recentWith (diagnostics : HookDiagnostics) (source : Event) (now : Int) :
    (countedDiagnostics diagnostics source now).recentEvents.length ≤ maxRecent := by
  rw [countedDiagnostics, recentWith, List.length_drop]
  omega

theorem length_counts_le {diagnostics : HookDiagnostics}
    (bounded : ∀ bucket ∈ diagnostics.hourly, bucket.counts.length ≤ maxKeysPerBucket)
    (source : Event) (now : Int) :
    ∀ bucket ∈ (countedDiagnostics diagnostics source now).hourly,
      bucket.counts.length ≤ maxKeysPerBucket :=
  length_updateBucket_le (fun _ short => length_countDecision short _ _) bounded

/-- The memory of a collector and what it saved of it are bounded. -/
structure CollectorState.Bounded (state : CollectorState) : Prop where
  memory : state.accumulator.diagnostics.Bounded
  saved : ∀ diagnostics, state.checkpoint = some diagnostics → diagnostics.Bounded

theorem bounded_default (now : Int) : (HookDiagnostics.default now).Bounded := by
  constructor <;> simp [HookDiagnostics.default]

theorem bounded_load {checkpoint : Option HookDiagnostics}
    (saved : ∀ diagnostics, checkpoint = some diagnostics → diagnostics.Bounded) (now : Int) :
    (HookDiagnosticAccumulator.load checkpoint now).diagnostics.Bounded := by
  cases checkpoint with
  | none => exact bounded_default now
  | some diagnostics =>
      have bounded := saved diagnostics rfl
      exact bounded_rebuildCounts bounded.recent bounded.keys now

theorem bounded_writeCheckpoint {state : CollectorState} (bounded : state.Bounded)
    (ending : CheckpointEnd) : (state.writeCheckpoint ending).Bounded := by
  unfold CollectorState.writeCheckpoint
  split
  · cases ending with
    | failed => exact bounded
    | written =>
        exact ⟨bounded.memory, fun _ saved => Option.some.inj saved ▸ bounded.memory⟩
    | unacknowledged =>
        exact ⟨bounded.memory, fun _ saved => Option.some.inj saved ▸ bounded.memory⟩
  · exact bounded

theorem bounded_step {state : CollectorState} (bounded : state.Bounded) (step : HookStep) :
    (state.step step).Bounded := by
  cases step with
  | record source now =>
      by_cases decision : IsHookDecision source
      · rw [CollectorState.step, record_of_decision decision]
        dsimp only
        refine ⟨?_, bounded.saved⟩
        have rebuilt := bounded_rebuildCounts
          (length_recentWith state.accumulator.diagnostics source now)
          (length_counts_le bounded.memory.keys source now) now
        exact rebuilt.updated now
      · rw [CollectorState.step, record_of_other decision]
        exact bounded
  | checkpoint ending => exact bounded_writeCheckpoint bounded ending
  | checkpointIfDue now ending =>
      rw [CollectorState.step, CollectorState.checkpointIfDue]
      split
      · exact bounded_writeCheckpoint bounded ending
      · exact bounded
  | reload now readable =>
      refine ⟨bounded_load (fun diagnostics saved => ?_) now, bounded.saved⟩
      cases readable with
      | true => exact bounded.saved diagnostics saved
      | false => exact absurd saved (by simp)

theorem bounded_run {state : CollectorState} (bounded : state.Bounded) (steps : List HookStep) :
    (state.run steps).Bounded := by
  induction steps generalizing state with
  | nil => exact bounded
  | cons step rest ih => exact ih (bounded_step bounded step)

theorem bounded_start (now : Int) : (CollectorState.start now).Bounded :=
  ⟨bounded_default now, fun _ saved => absurd saved (by simp [CollectorState.start])⟩

/-! ### Counts are exact -/

/-- The hours that a checkpoint has buckets for. -/
def savedHourly (checkpoint : Option HookDiagnostics) : List HourlyBucket :=
  (checkpoint.map HookDiagnostics.hourly).getD []

/-- The collector counts what was recorded, and so does its checkpoint if nothing is unsaved. -/
structure CountsHold (state : CollectorState) (recorded : List Int) (reading : Int) : Prop where
  holds : Holds state.accumulator.diagnostics.hourly recorded reading
  within : ∀ bucket ∈ state.accumulator.diagnostics.hourly, InWindow reading bucket.hourUnixMs
  total : state.accumulator.diagnostics.total = hourlyTotal state.accumulator.diagnostics.hourly
  counts : (state.accumulator.diagnostics.counts.map HookReasonCount.count).sum =
    state.accumulator.diagnostics.total
  saved : state.accumulator.dirty = false →
    Holds (savedHourly state.checkpoint) recorded reading

theorem countsHold_start (now : Int) : CountsHold (CollectorState.start now) [] now where
  holds := .nil now
  within := by simp [CollectorState.start, HookDiagnosticAccumulator.load, HookDiagnostics.default]
  total := rfl
  counts := rfl
  saved _ := .nil now

theorem CountsHold.exact {state : CollectorState} {recorded : List Int} {reading : Int}
    (counts : CountsHold state recorded reading) :
    state.accumulator.diagnostics.ExactFor recorded reading where
  total := by rw [counts.total, counts.holds.total counts.within]
  counts := counts.counts
  kept hour member inside := by
    obtain ⟨bucket, opened, rfl⟩ := List.mem_map.mp (counts.holds.kept hour member inside)
    exact ⟨bucket, opened, rfl, counts.holds.counted bucket opened⟩

theorem rebuildCounts_exact {diagnostics : HookDiagnostics} {recorded : List Int} {now : Int}
    (holds : Holds diagnostics.hourly recorded now)
    (room : (diagnostics.hourly.filter fun bucket => InWindow now bucket.hourUnixMs).length ≤
      maxBuckets) (few : recorded.length ≤ u64Max) :
    Holds (rebuildCounts diagnostics now).hourly recorded now ∧
      (∀ bucket ∈ (rebuildCounts diagnostics now).hourly, InWindow now bucket.hourUnixMs) ∧
      (rebuildCounts diagnostics now).total =
        hourlyTotal (rebuildCounts diagnostics now).hourly ∧
      ((rebuildCounts diagnostics now).counts.map HookReasonCount.count).sum =
        (rebuildCounts diagnostics now).total := by
  have held := holds.retained room
  have within : ∀ bucket ∈ retainedBuckets now diagnostics.hourly,
      InWindow now bucket.hourUnixMs := fun bucket member => (retainedBuckets_subset member).2
  have small : hourlyTotal (retainedBuckets now diagnostics.hourly) ≤ u64Max := by
    rw [held.total within]
    exact Nat.le_trans List.countP_le_length few
  have sum := sumValues_countsOf small
  have total : (rebuildCounts diagnostics now).total =
      hourlyTotal (retainedBuckets now diagnostics.hourly) := by
    change (countsOf (retainedBuckets now diagnostics.hourly)).sumValues % (u64Max + 1) = _
    rw [sum, Nat.mod_eq_of_lt (by omega)]
  refine ⟨held, within, total, ?_⟩
  rw [total, ← sum]
  simp only [rebuildCounts, List.map_map]
  rfl

theorem length_filter_hours (now : Int) (hourly : List HourlyBucket) :
    (hourly.filter fun bucket => InWindow now bucket.hourUnixMs).length =
      ((hours hourly).filter fun hour => InWindow now hour).length := by
  rw [hours, List.filter_map, List.length_map]
  rfl

theorem countsHold_record {state : CollectorState} {recorded : List Int} {reading now : Int}
    {source : Event} (decision : IsHookDecision source)
    (counts : CountsHold state recorded reading) (later : reading ≤ now) (positive : 0 ≤ now)
    (fits : now ≤ i64Max) (room : HasRoom state (.record source now))
    (few : recorded.length + 1 ≤ u64Max) :
    CountsHold (state.step (.record source now)) (recorded ++ [decisionHour source now]) now := by
  obtain ⟨keyRoom, hourRoom⟩ := room
  have inside := inWindow_decisionHour positive fits source
  have holds := counts.holds.forward later
  have small : countTotal (bucketCounts (decisionHour source now)
      state.accumulator.diagnostics.hourly) < u64Max := by
    unfold bucketCounts
    cases found : state.accumulator.diagnostics.hourly.find? fun bucket =>
        bucket.hourUnixMs = decisionHour source now with
    | none =>
        rw [Option.map_none, Option.getD_none]
        decide
    | some bucket =>
        rw [Option.map_some, Option.getD_some,
          holds.counted bucket (List.mem_of_find?_eq_some found)]
        have atMost := List.count_le_length (a := bucket.hourUnixMs) (l := recorded)
        omega
  have counted := holds.update inside (countTotal_countDecision keyRoom small)
  have room : ((countedHourly state.accumulator.diagnostics.hourly source now).filter
      fun bucket => InWindow now bucket.hourUnixMs).length ≤ maxBuckets := by
    rw [length_filter_hours, countedHourly, hours_updateBucket]
    exact hourRoom
  have length : (recorded ++ [decisionHour source now]).length ≤ u64Max := by
    rw [List.length_append, List.length_singleton]
    exact few
  have exact := @rebuildCounts_exact
    (countedDiagnostics state.accumulator.diagnostics source now) _ now counted room length
  rw [CollectorState.step, record_of_decision decision]
  dsimp only
  exact ⟨exact.1, exact.2.1, exact.2.2.1, exact.2.2.2, fun clean => absurd clean (by simp)⟩

theorem countsHold_writeCheckpoint {state : CollectorState} {recorded : List Int} {reading : Int}
    (counts : CountsHold state recorded reading) (ending : CheckpointEnd) :
    CountsHold (state.writeCheckpoint ending) recorded reading := by
  obtain ⟨holds, within, total, sum, saved⟩ := counts
  unfold CollectorState.writeCheckpoint
  split
  · rename_i dirty
    cases ending with
    | failed => exact ⟨holds, within, total, sum, saved⟩
    | written => exact ⟨holds, within, total, sum, fun _ => holds⟩
    | unacknowledged =>
        exact ⟨holds, within, total, sum, fun clean => absurd clean (by simp [dirty])⟩
  · exact ⟨holds, within, total, sum, saved⟩

theorem countsHold_reload {state : CollectorState} {recorded : List Int} {reading now : Int}
    (bounded : state.Bounded) (counts : CountsHold state recorded reading)
    (later : reading ≤ now) (clean : state.accumulator.dirty = false)
    (few : recorded.length ≤ u64Max) :
    CountsHold (state.step (.reload now true)) recorded now := by
  have holds := (counts.saved clean).forward later
  cases found : state.checkpoint with
  | none =>
      rw [found] at holds
      rw [CollectorState.step, found]
      exact ⟨holds, by simp [HookDiagnosticAccumulator.load, HookDiagnostics.default], rfl, rfl,
        fun _ => holds⟩
  | some diagnostics =>
      rw [found] at holds
      have room : (diagnostics.hourly.filter fun bucket =>
          InWindow now bucket.hourUnixMs).length ≤ maxBuckets :=
        Nat.le_trans (List.length_filter_le _ _) (bounded.saved diagnostics found).buckets
      obtain ⟨held, within, total, sum⟩ := rebuildCounts_exact holds room few
      rw [CollectorState.step, found]
      exact ⟨held, within, total, sum, fun _ => holds⟩

theorem countsHold_step {state : CollectorState} {recorded : List Int} {reading clock : Int}
    {step : HookStep} (bounded : state.Bounded) (counts : CountsHold state recorded reading)
    (behind : reading ≤ clock) (positive : 0 ≤ clock)
    (later : clock ≤ step.reading?.getD clock) (fits : step.reading?.getD clock ≤ i64Max)
    (room : HasRoom state step)
    (few : recorded.length + (recordedHours [step]).length ≤ u64Max) :
    CountsHold (state.step step) (recorded ++ recordedHours [step]) (lastReading reading [step]) ∧
      lastReading reading [step] ≤ step.reading?.getD clock := by
  cases step with
  | record source now =>
      dsimp only [HookStep.reading?, Option.getD_some] at later fits ⊢
      rw [recordedHours, lastReading, lastReading] at *
      by_cases decision : IsHookDecision source
      · rw [if_pos decision, if_pos decision, recordedHours] at *
        exact ⟨countsHold_record decision counts (by omega) (by omega) fits room few,
          Int.le_refl now⟩
      · rw [if_neg decision, if_neg decision, recordedHours, CollectorState.step,
          record_of_other decision, List.append_nil]
        exact ⟨counts, by omega⟩
  | checkpoint ending =>
      rw [recordedHours, recordedHours, List.append_nil, lastReading, lastReading]
      · exact ⟨countsHold_writeCheckpoint counts ending, behind⟩
      all_goals simp
  | checkpointIfDue now ending =>
      dsimp only [HookStep.reading?, Option.getD_some] at later fits ⊢
      rw [recordedHours, recordedHours, List.append_nil, lastReading, lastReading,
        CollectorState.step, CollectorState.checkpointIfDue]
      · refine ⟨?_, by omega⟩
        split
        · exact countsHold_writeCheckpoint counts ending
        · exact counts
      all_goals simp
  | reload now readable =>
      dsimp only [HookStep.reading?, Option.getD_some] at later fits ⊢
      obtain ⟨rfl, clean⟩ := room
      rw [recordedHours, recordedHours, List.append_nil, lastReading, lastReading]
      · exact ⟨countsHold_reload bounded counts (by omega) clean (by omega), Int.le_refl now⟩
      all_goals simp

theorem recordedHours_cons (step : HookStep) (steps : List HookStep) :
    recordedHours (step :: steps) = recordedHours [step] ++ recordedHours steps := by
  cases step with
  | record source now =>
      rw [recordedHours, recordedHours, recordedHours]
      split <;> rfl
  | checkpoint | checkpointIfDue | reload => simp [recordedHours]

theorem lastReading_cons (reading : Int) (step : HookStep) (steps : List HookStep) :
    lastReading reading (step :: steps) = lastReading (lastReading reading [step]) steps := by
  cases step <;> simp [lastReading]

theorem Clocked.fits {clock : Int} {steps : List HookStep} (clocked : Clocked clock steps) :
    clock ≤ i64Max := by
  induction steps generalizing clock with
  | nil => exact clocked.2
  | cons step steps ih => exact Int.le_trans clocked.2.1 (ih clocked.2.2)

theorem countsHold_run {state : CollectorState} {recorded : List Int} {reading clock : Int}
    {steps : List HookStep} (bounded : state.Bounded) (counts : CountsHold state recorded reading)
    (behind : reading ≤ clock) (clocked : Clocked clock steps) (roomy : Roomy state steps)
    (few : (recorded ++ recordedHours steps).length ≤ u64Max) :
    CountsHold (state.run steps) (recorded ++ recordedHours steps)
      (lastReading reading steps) := by
  induction steps generalizing state recorded reading clock with
  | nil =>
      rw [recordedHours, List.append_nil, lastReading]
      exact counts
  | cons step steps ih =>
      obtain ⟨positive, later, onward⟩ := clocked
      obtain ⟨room, rest⟩ := roomy
      rw [recordedHours_cons, ← List.append_assoc] at few ⊢
      have shorter : recorded.length + (recordedHours [step]).length ≤ u64Max := by
        rw [List.length_append, List.length_append] at few
        omega
      obtain ⟨stepped, notAhead⟩ :=
        countsHold_step bounded counts behind positive later onward.fits room shorter
      rw [lastReading_cons]
      exact ih (bounded_step bounded step) stepped notAhead onward rest few

/-! ### Room for the hours -/

/-! ### The counts of a run -/

/-- In every run of a collector memory is bounded; and if every decision and its hour have room,
and nothing is reloaded that is not saved, the counts are exact over the window. -/
theorem hook_counts_exact (first : Int) (steps : List HookStep) :
    ((CollectorState.start first).run steps).accumulator.diagnostics.Bounded ∧
    (Clocked first steps → Roomy (CollectorState.start first) steps →
      (recordedHours steps).length ≤ u64Max →
      ((CollectorState.start first).run steps).accumulator.diagnostics.ExactFor
        (recordedHours steps) (lastReading first steps)) := by
  refine ⟨(bounded_run (bounded_start first) steps).memory, fun clocked roomy few => ?_⟩
  have counts := countsHold_run (bounded_start first) (countsHold_start first)
    (Int.le_refl first) clocked roomy (by simpa using few)
  rw [List.nil_append] at counts
  exact counts.exact

def hookDecisionAt (time : Int64) : Event :=
  { occurredAtUnixMs := time
    durationMs := none
    sequence := 0
    entryPoint := .hook
    kind := .hookDecision
    outcome := .success
    authorization := .notApplicable
    invocationId := "1"
    programVersion := "1"
    operation := some "session_start"
    errorCode := none
    errorFamily := none
    reason := some "enabled"
    summary := none
    sessionDigest := none
    taskId := none
    taskSessionId := none
    episodeId := none
    checkpointId := none
    operationId := none
    resultCount := none }

/-- Decisions, a checkpoint, a reload and one more decision an hour later. -/
def reloadedSteps : List HookStep :=
  [.record (hookDecisionAt 7200000) 7200000, .record (hookDecisionAt 5000) 7200000,
    .checkpointIfDue 7206000 .written, .reload 7207000 true,
    .record (hookDecisionAt 10900000) 10900000]

theorem hook_counts_exact_reloaded :
    ((CollectorState.start 0).run reloadedSteps).accumulator.diagnostics.ExactFor
      (recordedHours reloadedSteps) (lastReading 0 reloadedSteps) :=
  (hook_counts_exact 0 reloadedSteps).2 (by decide) (by decide)
    (by decide)

/-- Decisions of 26 hours, recorded four minutes before the end of an hour. -/
def lateSteps : List HookStep :=
  ((List.range 25).map fun hour =>
    .record (hookDecisionAt (.ofNat ((76 + hour) * 3600000 + 3420000))) 363360000) ++
    [.record (hookDecisionAt 363600000) 363360000]

/-- The newest of 26 hours is dropped as soon as it is opened. -/
theorem newest_hour_dropped :
    Clocked 363360000 lateSteps ∧
    ¬ ((CollectorState.start 363360000).run lateSteps).accumulator.diagnostics.ExactFor
      (recordedHours lateSteps) (lastReading 363360000 lateSteps) := by
  refine ⟨by decide, fun exact => ?_⟩
  have total : ((CollectorState.start 363360000).run lateSteps).accumulator.diagnostics.total =
      25 := by decide +kernel
  have recorded : ((recordedHours lateSteps).countP fun hour =>
      InWindow (lastReading 363360000 lateSteps) hour) = 26 := by decide
  have counted := exact.total
  rw [total, recorded] at counted
  exact absurd counted (by decide)

end SharedContext.LogService
