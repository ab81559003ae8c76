import SharedContext.Domain.Validation
import SharedContext.Library.Calendar

/-!
# Dates of uploads

Uploads are filed under the month in which they run and the day of their first
event.  Both come from one transformation of seconds into a date.  It is right
from the first of March of the year 0 on; before it, the division that finds
the era rounds twice, and the date is off.
-/

namespace SharedContext.LogSync

open Calendar

inductive SyncErrorCode
  | invalidRoot
  | invalidBatch
  | invalidRemote
  | io
  | git
  | timeout
  | conflict
  | remoteHistoryMissing
  | pendingJournal
  | storageBudget
  deriving DecidableEq, Repr

structure SyncError where
  code : SyncErrorCode
  message : String
  deriving DecidableEq, Repr

abbrev Result (α : Type) := Except SyncError α

/-- What ends a computation with machine integers early. -/
inductive Interruption
  | overflow
  | refused (error : SyncError)
  deriving DecidableEq, Repr

def isI64 (value : Int) : Prop :=
  -2 ^ 63 ≤ value ∧ value < 2 ^ 63

instance (value : Int) : Decidable (isI64 value) :=
  instDecidableAnd

/-- The result of an operation on 64 bit integers. -/
def i64 (value : Int) : Except Interruption Int :=
  if isI64 value then .ok value else .error .overflow

/-- Convert to an unsigned integer of 32 bits, or to its default. -/
def u32OrDefault (value : Int) : Nat :=
  if 0 ≤ value ∧ value < 2 ^ 32 then value.toNat else 0

def checkedAdd (first second : Int) (error : SyncError) : Except Interruption Int :=
  if isI64 (first + second) then .ok (first + second) else .error (.refused error)

/-- What is divided into eras; an earlier day is moved, and then the division
rounds down once more. -/
def eraDividend (z : Int) : Except Interruption Int :=
  if 0 ≤ z then .ok z else i64 (z - 146096)

def civilDate (seconds : Int) : Except Interruption Date := do
  let days := seconds / 86400
  let z ← checkedAdd days 719468 ⟨.invalidBatch, "timestamp is outside supported range"⟩
  let dividend ← eraDividend z
  let era := dividend / 146097
  let eraDays ← i64 (era * 146097)
  let dayOfEra ← i64 (z - eraDays)
  let withoutQuads ← i64 (dayOfEra - dayOfEra.tdiv 1460)
  let withCenturies ← i64 (withoutQuads + dayOfEra.tdiv 36524)
  let yearDays ← i64 (withCenturies - dayOfEra.tdiv 146096)
  let yearOfEra := yearDays.tdiv 365
  let eraYears ← i64 (era * 400)
  let year ← i64 (yearOfEra + eraYears)
  let commonDays ← i64 (365 * yearOfEra)
  let leapDays ← i64 (commonDays + yearOfEra.tdiv 4)
  let beforeYear ← i64 (leapDays - yearOfEra.tdiv 100)
  let dayOfYear ← i64 (dayOfEra - beforeYear)
  let fiveDays ← i64 (5 * dayOfYear)
  let fiveDays ← i64 (fiveDays + 2)
  let monthPrime := fiveDays.tdiv 153
  let monthDays ← i64 (153 * monthPrime)
  let monthDays ← i64 (monthDays + 2)
  let dayOfMonth ← i64 (dayOfYear - monthDays.tdiv 5)
  let day ← i64 (dayOfMonth + 1)
  let month ← i64 (monthPrime + if monthPrime < 10 then 3 else -9)
  let year ← i64 (year + if month ≤ 2 then 1 else 0)
  pure ⟨year, u32OrDefault month, u32OrDefault day⟩

/-! ### The transformation without bounds -/

/-- The days since the first of March of the year 0. -/
def marchDays (seconds : Int) : Int :=
  seconds / 86400 + 719468

def foundEra (z : Int) : Int :=
  (if 0 ≤ z then z else z - 146096) / 146097

def yearOfEra (dayOfEra : Int) : Int :=
  (dayOfEra - dayOfEra / 1460 + dayOfEra / 36524 - dayOfEra / 146096) / 365

def dayOfYear (dayOfEra : Int) : Int :=
  dayOfEra - (365 * yearOfEra dayOfEra + yearOfEra dayOfEra / 4 - yearOfEra dayOfEra / 100)

/-- The date of a day of a year that starts in March. -/
def marchDate (year dayOfYear : Int) : Date :=
  let monthPrime := (5 * dayOfYear + 2) / 153
  let month := monthPrime + if monthPrime < 10 then 3 else -9
  ⟨year + if month ≤ 2 then 1 else 0, month.toNat,
    (dayOfYear - (153 * monthPrime + 2) / 5 + 1).toNat⟩

theorem foundEra_bounds (z : Int) :
    0 ≤ z - foundEra z * 146097 ∧ z - foundEra z * 146097 ≤ 292192 := by
  unfold foundEra
  split <;> omega

theorem foundEra_exact_iff (z : Int) :
    z - foundEra z * 146097 ≤ 146096 ↔ 0 ≤ z ∨ z % 146097 = 146096 := by
  unfold foundEra
  split <;> omega

theorem yearOfEra_eq (dayOfEra : Int) :
    yearOfEra dayOfEra = 4 * (dayOfEra / 1460) +
      (dayOfEra % 1460 + dayOfEra / 36524 - dayOfEra / 146096 - dayOfEra / 1460) / 365 := by
  unfold yearOfEra
  omega

theorem yearOfEra_bounds {dayOfEra : Int} (nonneg : 0 ≤ dayOfEra) (le : dayOfEra ≤ 292192) :
    0 ≤ yearOfEra dayOfEra ∧ yearOfEra dayOfEra ≤ 800 := by
  unfold yearOfEra
  omega

theorem yearOfEra_lt_iff {dayOfEra : Int} (nonneg : 0 ≤ dayOfEra) (le : dayOfEra ≤ 292192) :
    yearOfEra dayOfEra < 400 ↔ dayOfEra ≤ 146096 := by
  unfold yearOfEra
  omega

/-- The day of the year stays within its bounds, also where the day of the era
runs over; only a leap year has a last day of its own. -/
theorem dayOfYear_bounds {dayOfEra : Int} (nonneg : 0 ≤ dayOfEra) (le : dayOfEra ≤ 292192) :
    0 ≤ dayOfYear dayOfEra ∧ dayOfYear dayOfEra ≤ 366 ∧
      (dayOfEra ≤ 146096 → dayOfYear dayOfEra ≤ 365 ∧
        (dayOfYear dayOfEra = 365 → IsLeapYear (yearOfEra dayOfEra + 1))) := by
  unfold dayOfYear IsLeapYear
  have year := yearOfEra_eq dayOfEra
  generalize yearOfEra dayOfEra = found at year ⊢
  obtain ⟨place, placeEq⟩ : ∃ place, place = (dayOfEra % 1460 + dayOfEra / 36524 -
    dayOfEra / 146096 - dayOfEra / 1460) / 365 := ⟨_, rfl⟩
  rw [← placeEq] at year
  subst year
  obtain ⟨century, centuryEq⟩ : ∃ century, century = dayOfEra / 36524 := ⟨_, rfl⟩
  rw [← centuryEq] at placeEq
  have placeLow : -1 ≤ place := by omega
  have placeHigh : place ≤ 4 := by omega
  have centuryLow : 0 ≤ century := by omega
  have centuryHigh : century ≤ 8 := by omega
  interval_cases place <;> interval_cases century <;> omega

theorem dayNumber_marchDate {year dayOfYear : Int} (nonneg : 0 ≤ dayOfYear)
    (le : dayOfYear ≤ 366) :
    (marchDate year dayOfYear).dayNumber =
      365 * year + year / 4 - year / 100 + year / 400 + dayOfYear - 719468 := by
  unfold marchDate
  obtain ⟨monthPrime, monthEq⟩ : ∃ monthPrime, monthPrime = (5 * dayOfYear + 2) / 153 := ⟨_, rfl⟩
  rw [← monthEq]
  have low : 0 ≤ monthPrime := by omega
  have high : monthPrime ≤ 11 := by omega
  unfold Date.dayNumber daysBeforeYear
  by_cases leap : IsLeapYear year
  · interval_cases monthPrime <;> simp [daysBeforeMonth, leap] <;> unfold IsLeapYear at leap <;>
      omega
  · interval_cases monthPrime <;> simp [daysBeforeMonth, leap] <;> unfold IsLeapYear at leap <;>
      omega

theorem isValid_marchDate {year dayOfYear : Int} (nonneg : 0 ≤ dayOfYear)
    (le : dayOfYear ≤ 365) (leapDay : dayOfYear = 365 → IsLeapYear (year + 1)) :
    (marchDate year dayOfYear).IsValid := by
  obtain ⟨monthPrime, monthEq⟩ : ∃ monthPrime, monthPrime = (5 * dayOfYear + 2) / 153 := ⟨_, rfl⟩
  have low : 0 ≤ monthPrime := by omega
  have high : monthPrime ≤ 11 := by omega
  unfold marchDate
  rw [← monthEq]
  by_cases leap : IsLeapYear (year + 1)
  · interval_cases monthPrime <;> constructor <;> simp [daysInMonth, leap] <;> omega
  · have ordinary : dayOfYear ≠ 365 := fun last => leap (leapDay last)
    interval_cases monthPrime <;> constructor <;> simp [daysInMonth, leap] <;> omega

theorem i64_eq {value : Int} (low : -2 ^ 63 ≤ value) (high : value < 2 ^ 63) :
    i64 value = .ok value :=
  if_pos ⟨low, high⟩

theorem u32OrDefault_eq {value : Int} (le : value < 2 ^ 32) : u32OrDefault value = value.toNat := by
  unfold u32OrDefault
  split <;> omega

theorem ok_bind {α β : Type} (value : α) (next : α → Except Interruption β) :
    (Except.ok value >>= next) = next value :=
  rfl

theorem eraDividend_eq {z : Int} (low : -2 ^ 62 ≤ z) :
    eraDividend z = .ok (if 0 ≤ z then z else z - 146096) := by
  unfold eraDividend
  split
  · rfl
  · rw [i64_eq (by omega) (by omega)]

theorem civilDate_eq {seconds : Int} (range : isI64 seconds) :
    civilDate seconds = .ok (marchDate
      (yearOfEra (marchDays seconds - foundEra (marchDays seconds) * 146097) +
        foundEra (marchDays seconds) * 400)
      (dayOfYear (marchDays seconds - foundEra (marchDays seconds) * 146097))) := by
  obtain ⟨low, high⟩ := range
  have zLow : -106751991167301 ≤ marchDays seconds := by
    unfold marchDays
    omega
  have zHigh : marchDays seconds ≤ 106751991886768 := by
    unfold marchDays
    omega
  unfold civilDate checkedAdd
  dsimp only
  rw [← marchDays, if_pos ⟨by omega, by omega⟩, ok_bind, eraDividend_eq (by omega), ok_bind,
    ← foundEra]
  obtain ⟨eraLow, eraHigh⟩ := foundEra_bounds (marchDays seconds)
  generalize marchDays seconds = z at *
  generalize foundEra z = era at *
  rw [i64_eq (by omega) (by omega), ok_bind, i64_eq (by omega) (by omega), ok_bind]
  obtain ⟨dayOfEra, dayEq⟩ : ∃ dayOfEra, dayOfEra = z - era * 146097 := ⟨_, rfl⟩
  rw [← dayEq] at eraLow eraHigh ⊢
  obtain ⟨yearLow, yearHigh⟩ := yearOfEra_bounds eraLow eraHigh
  obtain ⟨dayLow, dayHigh, _⟩ := dayOfYear_bounds eraLow eraHigh
  rw [Int.tdiv_eq_ediv_of_nonneg eraLow, Int.tdiv_eq_ediv_of_nonneg eraLow,
    Int.tdiv_eq_ediv_of_nonneg eraLow, i64_eq (by omega) (by omega), ok_bind,
    i64_eq (by omega) (by omega), ok_bind, i64_eq (by omega) (by omega), ok_bind,
    Int.tdiv_eq_ediv_of_nonneg (by omega), ← yearOfEra]
  unfold dayOfYear at dayLow dayHigh ⊢
  generalize yearOfEra dayOfEra = yearEq at *
  rw [i64_eq (by omega) (by omega), ok_bind, i64_eq (by omega) (by omega), ok_bind,
    i64_eq (by omega) (by omega), ok_bind, Int.tdiv_eq_ediv_of_nonneg yearLow,
    Int.tdiv_eq_ediv_of_nonneg yearLow, i64_eq (by omega) (by omega), ok_bind,
    i64_eq (by omega) (by omega), ok_bind, i64_eq (by omega) (by omega), ok_bind]
  generalize dayOfEra - (365 * yearEq + yearEq / 4 - yearEq / 100) = day at *
  rw [i64_eq (by omega) (by omega), ok_bind, i64_eq (by omega) (by omega), ok_bind,
    Int.tdiv_eq_ediv_of_nonneg (by omega)]
  unfold marchDate
  obtain ⟨monthPrime, monthEq⟩ : ∃ monthPrime, monthPrime = (5 * day + 2) / 153 := ⟨_, rfl⟩
  rw [← monthEq]
  have monthLow : 0 ≤ monthPrime := by omega
  have monthHigh : monthPrime ≤ 11 := by omega
  rw [i64_eq (by omega) (by omega), ok_bind, i64_eq (by omega) (by omega), ok_bind,
    Int.tdiv_eq_ediv_of_nonneg (by omega), i64_eq (by omega) (by omega), ok_bind,
    i64_eq (by omega) (by omega), ok_bind]
  obtain ⟨month, monthDef⟩ : ∃ month, month = monthPrime + if monthPrime < 10 then 3 else -9 :=
    ⟨_, rfl⟩
  have monthBounds : 1 ≤ month ∧ month ≤ 12 := by
    rw [monthDef]
    split <;> omega
  rw [← monthDef, i64_eq (by omega) (by omega), ok_bind]
  obtain ⟨shift, shiftDef⟩ : ∃ shift : Int, shift = if month ≤ 2 then 1 else 0 := ⟨_, rfl⟩
  have shiftBounds : 0 ≤ shift ∧ shift ≤ 1 := by
    rw [shiftDef]
    split <;> omega
  rw [← shiftDef, i64_eq (by omega) (by omega), ok_bind, u32OrDefault_eq (by omega),
    u32OrDefault_eq (by omega)]
  dsimp only
  rw [← monthDef, ← shiftDef]
  rfl

/-! ### The dates that are right -/

/-- The result is the one valid date of the day of the instant. -/
def IsCivilDate (seconds : Int) (result : Except Interruption Date) : Prop :=
  ∃ date, result = .ok date ∧ date.IsValid ∧ date.dayNumber = seconds / 86400 ∧
    ∀ other : Date, other.IsValid → other.dayNumber = seconds / 86400 → other = date

/-- The instant is not before March of the year 0, or it is of the last day of an
era of 400 years. -/
def InRightEra (seconds : Int) : Prop :=
  0 ≤ marchDays seconds ∨ marchDays seconds % 146097 = 146096

theorem dayNumber_civilDate {seconds : Int} {date : Date} (range : isI64 seconds)
    (found : civilDate seconds = .ok date) :
    date.dayNumber = seconds / 86400 +
      yearOfEra (marchDays seconds - foundEra (marchDays seconds) * 146097) / 400 := by
  rw [civilDate_eq range] at found
  cases found
  obtain ⟨low, high⟩ := foundEra_bounds (marchDays seconds)
  obtain ⟨dayLow, dayHigh, _⟩ := dayOfYear_bounds low high
  rw [dayNumber_marchDate dayLow dayHigh]
  unfold dayOfYear
  have days : marchDays seconds = seconds / 86400 + 719468 := rfl
  generalize yearOfEra (marchDays seconds - foundEra (marchDays seconds) * 146097) = year
  omega

theorem civilDate_of_rightEra {seconds : Int} (range : isI64 seconds) (right : InRightEra seconds) :
    ∃ date, civilDate seconds = .ok date ∧ date.IsValid ∧ date.dayNumber = seconds / 86400 := by
  have within := (foundEra_exact_iff _).mpr right
  obtain ⟨low, high⟩ := foundEra_bounds (marchDays seconds)
  obtain ⟨dayLow, dayHigh, exact⟩ := dayOfYear_bounds low high
  obtain ⟨yearLow, _⟩ := yearOfEra_bounds low high
  have yearHigh := (yearOfEra_lt_iff low high).mpr within
  refine ⟨_, civilDate_eq range, ?_, ?_⟩
  · refine isValid_marchDate dayLow (exact within).1 fun last => ?_
    have leap := (exact within).2 last
    unfold IsLeapYear at leap ⊢
    omega
  · rw [dayNumber_civilDate range (civilDate_eq range)]
    omega

/-- The transformation of an instant is the Gregorian calendar exactly in a
right era; there, later instants have no earlier dates. -/
theorem civilDate_gregorian_iff (seconds : Int) (range : isI64 seconds) :
    (IsCivilDate seconds (civilDate seconds) ↔ InRightEra seconds) ∧
    ∀ later date laterDate, isI64 later → seconds ≤ later →
      InRightEra seconds → InRightEra later → civilDate seconds = .ok date →
        civilDate later = .ok laterDate → ¬ laterDate.Before date := by
  constructor
  · constructor
    · intro ⟨date, found, _, numbered, _⟩
      rw [dayNumber_civilDate range found] at numbered
      obtain ⟨low, high⟩ := foundEra_bounds (marchDays seconds)
      obtain ⟨yearLow, _⟩ := yearOfEra_bounds low high
      exact (foundEra_exact_iff _).mp ((yearOfEra_lt_iff low high).mp (by omega))
    · intro right
      obtain ⟨date, found, valid, numbered⟩ := civilDate_of_rightEra range right
      exact ⟨date, found, valid, numbered, fun other otherValid otherNumbered =>
        dayNumber_injective otherValid valid (otherNumbered.trans numbered.symm)⟩
  · intro second firstDate secondDate secondRange later firstRight secondRight
      firstFound secondFound before
    obtain ⟨date, found, valid, numbered⟩ := civilDate_of_rightEra range firstRight
    obtain ⟨other, otherFound, otherValid, otherNumbered⟩ :=
      civilDate_of_rightEra secondRange secondRight
    rw [found] at firstFound
    rw [otherFound] at secondFound
    cases firstFound
    cases secondFound
    have earlier := dayNumber_lt_of_before otherValid valid before
    omega

theorem epoch_is_civil : IsCivilDate 0 (civilDate 0) :=
  (civilDate_gregorian_iff 0 (by decide)).1.mpr (.inl (by decide))

/-- Two days before March of the year 0 the date is that of the day after. -/
theorem february_of_year_zero_differs :
    isI64 (-62162208000) ∧ civilDate (-62162208000) = .ok ⟨0, 2, 29⟩ ∧
      ¬ IsCivilDate (-62162208000) (civilDate (-62162208000)) := by
  have found : civilDate (-62162208000) = .ok ⟨0, 2, 29⟩ := by decide +kernel
  refine ⟨by decide, found, ?_⟩
  intro ⟨date, same, _, numbered, _⟩
  rw [found] at same
  cases same
  revert numbered
  decide

end SharedContext.LogSync
