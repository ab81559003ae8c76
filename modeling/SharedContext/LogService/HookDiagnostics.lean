import SharedContext.Library.Entries
import SharedContext.LogService.Batch
import SharedContext.Telemetry.Event
import Mathlib.Order.Lattice
import Mathlib.Data.Prod.Lex
import Mathlib.Data.String.Basic

/-!
# Rolling counts of Hook decisions

The collector counts every Hook decision in a bucket of its hour.  Buckets that
leave the window of a day are dropped, and the most recent events are kept.
-/

namespace SharedContext.LogService

open Telemetry

def windowMs : Int := 24 * 60 * 60 * 1000
def hourMs : Int := 60 * 60 * 1000
def futureSkewMs : Int := 5 * 60 * 1000
def checkpointMs : Int := 5000
def maxRecent : Nat := 5000
def maxKeysPerBucket : Nat := 128
def maxBuckets : Nat := 25

def i64Min : Int := -2 ^ 63
def i64Max : Int := 2 ^ 63 - 1
def u64Max : Nat := 2 ^ 64 - 1

/-- Sums of `i64` values saturate. -/
def saturateI64 (value : Int) : Int :=
  max i64Min (min value i64Max)

/-- Sums of `u64` values saturate. -/
def saturateU64 (value : Nat) : Nat :=
  min value u64Max

structure HookReasonCount where
  decision : Outcome
  reason : String
  count : Nat
  deriving DecidableEq

structure BucketCount where
  decision : Outcome
  reason : String
  count : Nat
  deriving DecidableEq

structure HourlyBucket where
  hourUnixMs : Int
  counts : List BucketCount
  deriving DecidableEq

structure HookDiagnostics where
  schemaVersion : Nat
  observedFromUnixMs : Int
  updatedAtUnixMs : Int
  total : Nat
  counts : List HookReasonCount
  recentEvents : List Event
  hourly : List HourlyBucket
  deriving DecidableEq

def HookDiagnostics.default (now : Int) : HookDiagnostics :=
  { schemaVersion := 1
    observedFromUnixMs := now
    updatedAtUnixMs := 0
    total := 0
    counts := []
    recentEvents := []
    hourly := [] }

/-! ### The counts of one bucket -/

/-- Count one more in the first entry that is asked for, if there is one. -/
def countFirst (asked : BucketCount → Bool) : List BucketCount → List BucketCount
  | [] => []
  | item :: rest =>
      if asked item then { item with count := saturateU64 (item.count + 1) } :: rest
      else item :: countFirst asked rest

def BucketCount.isFor (decision : Outcome) (reason : String) (item : BucketCount) : Bool :=
  item.decision = decision && item.reason = reason

/-- Count a decision under its reason, and under "other" when there is no room for its reason. -/
def countDecision (decision : Outcome) (reason : String) (counts : List BucketCount) :
    List BucketCount :=
  if counts.any (BucketCount.isFor decision reason) then
    countFirst (BucketCount.isFor decision reason) counts
  else if counts.length < maxKeysPerBucket then counts ++ [⟨decision, reason, 1⟩]
  else countFirst (BucketCount.isFor decision "other") counts

/-- Change the bucket of an hour, which is opened at the end of the list if there is none. -/
def updateBucket (hour : Int) (update : List BucketCount → List BucketCount) :
    List HourlyBucket → List HourlyBucket
  | [] => [⟨hour, update []⟩]
  | bucket :: rest =>
      if bucket.hourUnixMs = hour then { bucket with counts := update bucket.counts } :: rest
      else bucket :: updateBucket hour update rest

/-! ### Rebuilding the counts -/

def InWindow (now hour : Int) : Prop :=
  saturateI64 (now - windowMs) < saturateI64 (hour + hourMs) ∧
    hour ≤ saturateI64 (now + futureSkewMs)

instance (now hour : Int) : Decidable (InWindow now hour) :=
  inferInstanceAs (Decidable (_ ∧ _))

/-- The buckets that are kept, in the order of their hours. -/
def retainedBuckets (now : Int) (hourly : List HourlyBucket) : List HourlyBucket :=
  ((hourly.filter fun bucket => InWindow now bucket.hourUnixMs).insertionSort
    fun first second => first.hourUnixMs ≤ second.hourUnixMs).take maxBuckets

/-- The declaration order of the outcomes is the order of the counts. -/
def outcomeRank : Outcome → Nat
  | .started => 0
  | .success => 1
  | .failure => 2
  | .disabled => 3
  | .failOpen => 4
  | .degraded => 5
  | .dropped => 6
  | .unknown => 7

theorem outcomeRank_injective : Function.Injective outcomeRank := by
  intro first second same
  cases first <;> cases second <;> first | rfl | cases same

instance : LinearOrder Outcome :=
  LinearOrder.lift' outcomeRank outcomeRank_injective

abbrev ReasonKey := Outcome ×ₗ String

def addCount (counts : BTreeMap ReasonKey Nat) (item : BucketCount) : BTreeMap ReasonKey Nat :=
  counts.upsert (toLex (item.decision, item.reason)) 0 fun current =>
    saturateU64 (current + item.count)

def countsOf (hourly : List HourlyBucket) : BTreeMap ReasonKey Nat :=
  (hourly.flatMap HourlyBucket.counts).foldl addCount BTreeMap.empty

def rebuildCounts (diagnostics : HookDiagnostics) (now : Int) : HookDiagnostics :=
  let cutoff := saturateI64 (now - windowMs)
  let hourly := retainedBuckets now diagnostics.hourly
  let counts := (countsOf hourly).entries
  { diagnostics with
    hourly
    total := (counts.map Prod.snd).sum % (u64Max + 1)
    counts := counts.map fun entry => ⟨(ofLex entry.1).1, (ofLex entry.1).2, entry.2⟩
    observedFromUnixMs :=
      match hourly.head? with
      | none => now
      | some bucket => max bucket.hourUnixMs cutoff }

/-! ### The accumulator of the collector -/

structure HookDiagnosticAccumulator where
  diagnostics : HookDiagnostics
  dirty : Bool
  lastCheckpointUnixMs : Int
  deriving DecidableEq

/-- Read the last checkpoint; without a readable one, start afresh. -/
def HookDiagnosticAccumulator.load (checkpoint : Option HookDiagnostics) (now : Int) :
    HookDiagnosticAccumulator :=
  let diagnostics :=
    match checkpoint with
    | none => HookDiagnostics.default now
    | some diagnostics => rebuildCounts diagnostics now
  ⟨diagnostics, false, diagnostics.updatedAtUnixMs⟩

/-- The time of a decision, no further from the clock than the window and the skew allow. -/
def clampedTime (now : Int) (event : Event) : Int :=
  max (saturateI64 (now - windowMs))
    (min event.occurredAtUnixMs.toInt (saturateI64 (now + futureSkewMs)))

def hourOf (time : Int) : Int :=
  time / hourMs * hourMs

def notAHookDecision : Error :=
  ⟨.invalidInput, "hook diagnostics accepts only HookDecision events"⟩

def HookDiagnosticAccumulator.record (accumulator : HookDiagnosticAccumulator) (source : Event)
    (now : Int) : Result HookDiagnosticAccumulator := do
  Result.require (source.entryPoint = .hook ∧ source.kind = .hookDecision) notAHookDecision
  let event :=
    { source.normalized with
      occurredAtUnixMs := Int64.ofInt (clampedTime now source.normalized) }
  let hour := hourOf event.occurredAtUnixMs.toInt
  let reason := event.reason.getD "unspecified"
  let diagnostics := accumulator.diagnostics
  let hourly := updateBucket hour (countDecision event.outcome reason) diagnostics.hourly
  let recent := diagnostics.recentEvents ++ [event]
  let recent := recent.drop (recent.length - maxRecent)
  let diagnostics := rebuildCounts { diagnostics with hourly, recentEvents := recent } now
  pure
    { accumulator with
      diagnostics := { diagnostics with updatedAtUnixMs := now }
      dirty := true }

end SharedContext.LogService
