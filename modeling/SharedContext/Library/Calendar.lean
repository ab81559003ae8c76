import Mathlib

/-!
# The proleptic Gregorian calendar

Dates are counted in days from the first of January 1970, in both directions.
The count of a date is one more than that of the day before it, so it orders
the dates and tells them apart.
-/

namespace SharedContext.Calendar

structure Date where
  year : Int
  month : Nat
  day : Nat
  deriving DecidableEq, Repr

def IsLeapYear (year : Int) : Prop :=
  year % 4 = 0 ∧ (year % 100 ≠ 0 ∨ year % 400 = 0)

instance (year : Int) : Decidable (IsLeapYear year) :=
  instDecidableAnd

def daysInMonth (year : Int) : Nat → Nat
  | 2 => if IsLeapYear year then 29 else 28
  | 4 | 6 | 9 | 11 => 30
  | _ => 31

/-- The days from the start of the year to the start of the month. -/
def daysBeforeMonth (year : Int) (month : Nat) : Int :=
  let leapDay := if IsLeapYear year then 1 else 0
  match month with
  | 0 | 1 => 0
  | 2 => 31
  | 3 => 59 + leapDay
  | 4 => 90 + leapDay
  | 5 => 120 + leapDay
  | 6 => 151 + leapDay
  | 7 => 181 + leapDay
  | 8 => 212 + leapDay
  | 9 => 243 + leapDay
  | 10 => 273 + leapDay
  | 11 => 304 + leapDay
  | _ => 334 + leapDay

/-- The days from the start of the year 0 to the start of the year. -/
def daysBeforeYear (year : Int) : Int :=
  365 * year + (year + 3) / 4 - (year + 99) / 100 + (year + 399) / 400

namespace Date

structure IsValid (date : Date) : Prop where
  month_pos : 1 ≤ date.month
  month_le : date.month ≤ 12
  day_pos : 1 ≤ date.day
  day_le : date.day ≤ daysInMonth date.year date.month

/-- The number of the day, counted from 1970-01-01. -/
def dayNumber (date : Date) : Int :=
  daysBeforeYear date.year + daysBeforeMonth date.year date.month + date.day - 719529

/-- The order of dates: by year, then by month, then by day. -/
def Before (first second : Date) : Prop :=
  first.year < second.year ∨ first.year = second.year ∧
    (first.month < second.month ∨ first.month = second.month ∧ first.day < second.day)

end Date

/-! ### Years and months -/

theorem daysBeforeYear_succ (year : Int) :
    daysBeforeYear (year + 1) = daysBeforeYear year + 365 + if IsLeapYear year then 1 else 0 := by
  unfold daysBeforeYear
  by_cases leap : IsLeapYear year
  · rw [if_pos leap]
    unfold IsLeapYear at leap
    omega
  · rw [if_neg leap]
    unfold IsLeapYear at leap
    omega

theorem daysBeforeYear_mono {first second : Int} (before : first < second) :
    daysBeforeYear first + 365 + (if IsLeapYear first then 1 else 0) ≤ daysBeforeYear second := by
  rw [← daysBeforeYear_succ]
  unfold daysBeforeYear
  omega

theorem daysBeforeMonth_succ (year : Int) {month : Nat} (pos : 1 ≤ month) (le : month < 12) :
    daysBeforeMonth year (month + 1) = daysBeforeMonth year month + daysInMonth year month := by
  by_cases leap : IsLeapYear year <;> interval_cases month <;>
    simp [daysBeforeMonth, daysInMonth, leap]

theorem daysBeforeMonth_december (year : Int) :
    daysBeforeMonth year 12 + daysInMonth year 12 = 365 + if IsLeapYear year then 1 else 0 := by
  by_cases leap : IsLeapYear year <;> simp [daysBeforeMonth, daysInMonth, leap]

theorem daysBeforeMonth_mono (year : Int) {first second : Nat} (pos : 1 ≤ first)
    (before : first < second) (le : second ≤ 12) :
    daysBeforeMonth year first + daysInMonth year first ≤ daysBeforeMonth year second := by
  induction second, before using Nat.le_induction with
  | base => rw [daysBeforeMonth_succ year pos (by omega)]
  | succ month larger ih =>
      rw [daysBeforeMonth_succ year (by omega) (by omega)]
      have shorter := ih (by omega)
      omega

theorem daysInMonth_pos (year : Int) (month : Nat) : 0 < daysInMonth year month := by
  unfold daysInMonth
  split <;> first | omega | (split <;> omega)

theorem Date.IsValid.dayOfYear_le {date : Date} (valid : date.IsValid) :
    daysBeforeMonth date.year date.month + date.day ≤
      365 + if IsLeapYear date.year then 1 else 0 := by
  have day := valid.day_le
  rcases Nat.lt_or_eq_of_le valid.month_le with earlier | december
  · have later := daysBeforeMonth_mono date.year valid.month_pos earlier (Nat.le_refl 12)
    have whole := daysBeforeMonth_december date.year
    have pos := daysInMonth_pos date.year 12
    omega
  · have whole := daysBeforeMonth_december date.year
    rw [december] at day ⊢
    omega

theorem daysBeforeMonth_nonneg (year : Int) (month : Nat) : 0 ≤ daysBeforeMonth year month := by
  unfold daysBeforeMonth
  by_cases leap : IsLeapYear year <;> simp only [leap, if_true, if_false] <;> split <;> decide

/-! ### The count of days -/

theorem dayNumber_lt_of_before {first second : Date} (firstValid : first.IsValid)
    (secondValid : second.IsValid) (before : first.Before second) :
    first.dayNumber < second.dayNumber := by
  unfold Date.dayNumber
  rcases before with year | ⟨year, month | ⟨month, day⟩⟩
  · have years := daysBeforeYear_mono year
    have within := firstValid.dayOfYear_le
    have start := daysBeforeMonth_nonneg second.year second.month
    have day := secondValid.day_pos
    omega
  · have months := daysBeforeMonth_mono first.year firstValid.month_pos month secondValid.month_le
    have within := firstValid.day_le
    have day := secondValid.day_pos
    rw [← year]
    omega
  · rw [← year, ← month]
    omega

theorem before_trichotomy (first second : Date) :
    first.Before second ∨ first = second ∨ second.Before first := by
  unfold Date.Before
  by_cases same : first = second
  · exact .inr (.inl same)
  · have different : ¬ (first.year = second.year ∧ first.month = second.month ∧
        first.day = second.day) := by
      intro ⟨year, month, day⟩
      refine same ?_
      cases first
      cases second
      simp_all
    omega

theorem dayNumber_injective {first second : Date} (firstValid : first.IsValid)
    (secondValid : second.IsValid) (same : first.dayNumber = second.dayNumber) :
    first = second := by
  rcases before_trichotomy first second with before | equal | after
  · have := dayNumber_lt_of_before firstValid secondValid before
    omega
  · exact equal
  · have := dayNumber_lt_of_before secondValid firstValid after
    omega

end SharedContext.Calendar
