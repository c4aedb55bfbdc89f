/-!
The proleptic Gregorian calendar. Days are counted from the first day of year 1. Main
statement: the date of a day counts back to that day.
-/

namespace NameserverAudit.Calendar

structure Date where
  year : Nat
  month : Nat
  day : Nat
deriving DecidableEq, Repr

def isLeap (year : Nat) : Bool :=
  year % 4 == 0 && (year % 100 != 0 || year % 400 == 0)

def monthLengths (year : Nat) : List Nat :=
  [31, if isLeap year then 29 else 28, 31, 30, 31, 30, 31, 31, 30, 31, 30, 31]

def monthLength (year month : Nat) : Nat :=
  (monthLengths year).getD (month - 1) 0

/-- How many days come before the first day of a year. -/
def daysBeforeYear (year : Nat) : Nat :=
  let y := year - 1
  y * 365 + y / 4 - y / 100 + y / 400

/-- How many days of a year come before the first day of a month. -/
def daysBeforeMonth (year month : Nat) : Nat :=
  ((monthLengths year).take (month - 1)).foldl (· + ·) 0

/-- The number of a date, counted from zero at the first day of year 1. -/
def Date.toDay (d : Date) : Nat :=
  daysBeforeYear d.year + daysBeforeMonth d.year d.month + (d.day - 1)

/-- The year of a day and the days of that year before it. -/
def yearOf (n : Nat) : Nat × Nat :=
  let quadricentury := n / 146097
  let n := n % 146097
  let century := min 3 (n / 36524)
  let n := n - century * 36524
  let quadrennium := n / 1461
  let n := n % 1461
  let year := min 3 (n / 365)
  (quadricentury * 400 + century * 100 + quadrennium * 4 + year + 1, n - year * 365)

/-- The month and the day of the month after a number of days, given the months' lengths. -/
def monthOf (n : Nat) : (month : Nat) → List Nat → Nat × Nat
  | month, [] => (month, n + 1)
  | month, length :: rest =>
      if n < length then (month, n + 1) else monthOf (n - length) (month + 1) rest

def Date.ofDay (n : Nat) : Date :=
  let (year, rest) := yearOf n
  let (month, day) := monthOf rest 1 (monthLengths year)
  ⟨year, month, day⟩

/-- The day of the week of a day, Monday being zero. -/
def weekday (n : Nat) : Nat := n % 7

/-- The Monday of the first week of a year: the week with the year's first Thursday. It may be
in the year before, so it is an integer. -/
def firstMonday (year : Nat) : Int :=
  let first := daysBeforeYear year
  let w := weekday first
  let monday : Int := (first : Int) - w
  if 3 < w then monday + 7 else monday

def hasLongCalendar (year : Nat) : Bool :=
  let w := weekday (daysBeforeYear year)
  w == 3 || (w == 2 && isLeap year)

/-- Counting the days before a year that is given by its place in the cycles of 400, 100 and 4
years, each quotient being exact. -/
theorem daysBeforeYear_of_cycles {q c d y : Nat} (hc : c ≤ 3) (hd : d ≤ 24) (hy : y ≤ 3)
    : daysBeforeYear (q * 400 + c * 100 + d * 4 + y + 1)
      = q * 146097 + c * 36524 + d * 1461 + y * 365 := by
  have quarters : (q * 400 + c * 100 + d * 4 + y) / 4 = q * 100 + c * 25 + d := by omega
  have centuries : (q * 400 + c * 100 + d * 4 + y) / 100 = q * 4 + c := by omega
  have quadricenturies : (q * 400 + c * 100 + d * 4 + y) / 400 = q := by omega
  simp only [daysBeforeYear, Nat.add_sub_cancel, quarters, centuries, quadricenturies]
  omega

/-- The days before a year and the days of it before a day make up that day. -/
theorem daysBeforeYear_yearOf (n : Nat)
    : daysBeforeYear (yearOf n).1 + (yearOf n).2 = n := by
  simp only [yearOf]
  generalize hc : min 3 (n % 146097 / 36524) = c
  generalize hd : (n % 146097 - c * 36524) / 1461 = d
  generalize hy : min 3 ((n % 146097 - c * 36524) % 1461 / 365) = y
  rw [daysBeforeYear_of_cycles (by omega) (by omega) (by omega)]
  omega

/-- A date of the years 1 to 9999. -/
structure Date.Valid (d : Date) : Prop where
  year_pos : 1 ≤ d.year
  year_le : d.year ≤ 9999
  month_pos : 1 ≤ d.month
  month_le : d.month ≤ 12
  day_pos : 1 ≤ d.day
  day_le : d.day ≤ monthLength d.year d.month

/-- The days of the years 1 to 9999. -/
def days : Nat := 3652059

/-- The months before a month and the month itself are within the year. -/
theorem daysBeforeMonth_add_le (year : Nat) (month : Fin 12)
    : daysBeforeMonth year (month + 1) + monthLength year (month + 1)
      ≤ if isLeap year then 366 else 365 := by
  unfold daysBeforeMonth monthLength monthLengths
  generalize isLeap year = leap
  revert month leap
  decide

/-- The number of a date is below that of the first day after the years 1 to 9999. -/
theorem Date.Valid.toDay_lt {d : Date} (valid : d.Valid) : d.toDay < days := by
  obtain ⟨year_pos, year_le, month_pos, month_le, day_pos, day_le⟩ := valid
  have within := daysBeforeMonth_add_le d.year ⟨d.month - 1, by omega⟩
  simp only [Nat.sub_add_cancel month_pos] at within
  unfold toDay daysBeforeYear days
  dsimp only
  rcases Nat.lt_or_eq_of_le year_le with before | last
  · have : (if isLeap d.year then 366 else 365) ≤ 366 := by split <;> decide
    omega
  · have common : isLeap 9999 = false := by decide
    rw [last, common, if_neg (by decide)] at within
    rw [last] at day_le ⊢
    omega

end NameserverAudit.Calendar
