import Mathlib.Algebra.Order.Ring.Nat
import NameserverAudit.Time.Instant

/-!
Dates of the calendar. Every day from the first one of year 1 to the last one of year 9999 has a
date in range. Main statement: the date of such a day is a date of the calendar, and its number
is the day.
-/

namespace NameserverAudit.Calendar

-----------------------------------------------------------------------------------------
-- Years
-----------------------------------------------------------------------------------------

theorem yearOf_range {n : Nat} (h : n < days) : 1 ≤ (yearOf n).1 ∧ (yearOf n).1 ≤ 9999 := by
  simp only [yearOf]
  rw [days] at h
  omega

/-- The 366th day belongs to leap years only: the cycles of 4, 100 and 400 years leave no such
day in another year.
-/
theorem yearOf_rest (n : Nat)
    : (yearOf n).2 < 365 ∨ (yearOf n).2 = 365 ∧ isLeap (yearOf n).1 = true := by
  simp only [yearOf]
  generalize hq : n / 146097 = q
  generalize hr : n % 146097 = r
  have hr' : r < 146097 := hr ▸ Nat.mod_lt n (by decide)
  generalize hc : min 3 (r / 36524) = c
  generalize hd : (r - c * 36524) / 1461 = d
  generalize hs : (r - c * 36524) % 1461 = s
  generalize hy : min 3 (s / 365) = y
  by_cases short : s - y * 365 < 365
  · exact .inl short
  · have last : y = 3 ∧ s = 1460 := by omega
    obtain ⟨rfl, rfl⟩ := last
    refine .inr ⟨by omega, ?_⟩
    have quadricentenary : d = 24 → c = 3 := by omega
    have bound : d ≤ 24 := by omega
    simp only [isLeap, Bool.and_eq_true, Bool.or_eq_true, beq_iff_eq, bne_iff_ne, ne_eq]
    refine ⟨by omega, ?_⟩
    by_cases century : d = 24
    · right
      have := quadricentenary century
      omega
    · left
      omega

-----------------------------------------------------------------------------------------
-- Months
-----------------------------------------------------------------------------------------

/-- The month that holds a day, by induction on the months' lengths: the months before it and
the day of the month make up the day.
-/
theorem monthOf_spec {n : Nat} {lengths : List Nat} (month : Nat) (h : n < lengths.sum)
    : ∃ i, i < lengths.length
      ∧ (monthOf n month lengths).1 = month + i
      ∧ (lengths.take i).sum + (monthOf n month lengths).2 = n + 1
      ∧ 1 ≤ (monthOf n month lengths).2
      ∧ (monthOf n month lengths).2 ≤ lengths.getD i 0 := by
  induction lengths generalizing n month with
  | nil => simp at h
  | cons length rest ih =>
      by_cases first : n < length
      · have here : monthOf n month (length :: rest) = (month, n + 1) := by
          simp [monthOf, first]
        rw [here]
        refine ⟨0, by simp, rfl, by simp, Nat.le_add_left 1 n, ?_⟩
        rw [List.getD_cons_zero]
        exact first
      · rw [List.sum_cons] at h
        obtain ⟨i, hi, hmonth, hsum, hpos, hle⟩ := ih (n := n - length) (month + 1) (by omega)
        have step : monthOf n month (length :: rest) = monthOf (n - length) (month + 1) rest := by
          simp [monthOf, first]
        rw [step]
        refine ⟨i + 1, by simpa using hi, by omega, ?_, hpos, by simpa using hle⟩
        rw [List.take_succ_cons, List.sum_cons]
        omega

theorem monthLength_le (year month : Nat) : monthLength year month ≤ 31 := by
  have all : ∀ length ∈ monthLengths year, length ≤ 31 := by
    cases h : isLeap year <;> simp [monthLengths, h]
  rw [monthLength, List.getD_eq_getElem?_getD]
  cases h : (monthLengths year)[month - 1]? with
  | none => exact Nat.zero_le _
  | some length => exact all length (List.mem_of_getElem? h)

theorem monthLengths_sum (year : Nat)
    : (monthLengths year).sum = if isLeap year then 366 else 365 := by
  cases h : isLeap year <;> simp [monthLengths, h]

theorem yearOf_rest_lt (n : Nat) : (yearOf n).2 < (monthLengths (yearOf n).1).sum := by
  rw [monthLengths_sum]
  rcases yearOf_rest n with short | ⟨last, leap⟩
  · split <;> omega
  · rw [if_pos leap]
    omega

/-- The date of a day is a date of the calendar. -/
theorem Date.ofDay_valid {n : Nat} (h : n < days) : (Date.ofDay n).Valid := by
  obtain ⟨year_pos, year_le⟩ := yearOf_range h
  obtain ⟨i, hi, hmonth, -, day_pos, day_le⟩ := monthOf_spec 1 (yearOf_rest_lt n)
  have twelve : (monthLengths (yearOf n).1).length = 12 := rfl
  refine ⟨year_pos, year_le, ?_, ?_, day_pos, ?_⟩
  · show 1 ≤ (monthOf (yearOf n).2 1 (monthLengths (yearOf n).1)).1
    omega
  · show (monthOf (yearOf n).2 1 (monthLengths (yearOf n).1)).1 ≤ 12
    omega
  · show (monthOf (yearOf n).2 1 (monthLengths (yearOf n).1)).2
      ≤ (monthLengths (yearOf n).1).getD
        ((monthOf (yearOf n).2 1 (monthLengths (yearOf n).1)).1 - 1) 0
    rwa [hmonth, Nat.add_sub_cancel_left]

/-- The date of a day has the number of the day. -/
theorem Date.toDay_ofDay (n : Nat) : (Date.ofDay n).toDay = n := by
  obtain ⟨i, hi, hmonth, hsum, day_pos, -⟩ := monthOf_spec 1 (yearOf_rest_lt n)
  have before := daysBeforeYear_yearOf n
  show daysBeforeYear (yearOf n).1
    + ((monthLengths (yearOf n).1).take
        ((monthOf (yearOf n).2 1 (monthLengths (yearOf n).1)).1 - 1)).foldl (· + ·) 0
    + ((monthOf (yearOf n).2 1 (monthLengths (yearOf n).1)).2 - 1) = n
  rw [hmonth, Nat.add_sub_cancel_left, ← List.sum_eq_foldl]
  omega

end NameserverAudit.Calendar
