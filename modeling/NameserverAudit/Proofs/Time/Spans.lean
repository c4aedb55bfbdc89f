import Mathlib.Tactic.Ring
import NameserverAudit.Proofs.Number.Decimal
import NameserverAudit.Time.Instant

/-! Which numbers of seconds are spans of time. The days of a span have at most nine digits.
Main statement: of the numbers that are not negative, just those are no spans that are undefined,
infinite or at least as great as the limit.
-/

namespace NameserverAudit.Seconds

-- the limits are powers that no step below should compute
attribute [local irreducible] Double.one Double.overflow

open Double (nearest one roundQuotient)

/-- The seconds of a thousand million days. -/
def limit : Nat := 86400000000000

-----------------------------------------------------------------------------------------
-- Microseconds
-----------------------------------------------------------------------------------------

theorem roundQuotientInt_natCast (num den : Nat)
    : roundQuotientInt num den = roundQuotient num den := by
  simp [roundQuotientInt]

theorem million_eq : Double.ofInt 1000000 = .finite false (1000000 * one) := by
  decide +kernel

theorem limit_eq : Double.ofInt limit = .finite false (limit * one) := by
  decide +kernel

theorem million_finite : 1000000 * one < Double.overflow := by
  decide +kernel

theorem fraction_le (units : Nat) : units % one * 1000000 ≤ 1000000 * one := by
  rw [Nat.mul_comm]
  exact Nat.mul_le_mul_left _ (Nat.mod_lt _ Double.one_pos).le

/-- Rounding does not take the microseconds of a fraction beyond a whole number of them. -/
theorem nearest_fraction_le {r c : Nat} (few : c ≤ 1000000) (h : r * 1000000 ≤ c * one)
    : nearest (r * (1000000 * one)) one ≤ c * one := by
  have exact_ : nearest (c * one * one) one = c * one := by
    refine Double.nearest_mul Double.one_pos ?_
    rw [Double.one_eq]
    exact Double.representable_mul_pow 1074 (by omega)
  rw [← exact_]
  refine Double.nearest_le Double.one_pos Double.one_pos ?_
  calc r * (1000000 * one) * one = r * 1000000 * (one * one) := by ring
    _ ≤ c * one * (one * one) := Nat.mul_le_mul_right _ h
    _ = c * one * one * one := by ring

/-- The microseconds of a number without a minus sign: those of its whole seconds, and at most
as many as its fraction has in exact numbers.
-/
theorem microsecondsOf_bounds {units c : Nat} (few : c ≤ 1000000)
    (part : units % one * 1000000 ≤ c * one)
    : (units / one * 1000000 : Nat) ≤ microsecondsOf false units
      ∧ microsecondsOf false units ≤ (units / one * 1000000 + c : Nat) := by
  have fraction := nearest_fraction_le few part
  generalize hm : nearest (units % one * (1000000 * one)) one = m at fraction
  have small : m < Double.overflow :=
    Nat.lt_of_le_of_lt (Nat.le_trans fraction (Nat.mul_le_mul_right one few)) million_finite
  have product : (Double.finite false (units % one)).mul (Double.ofInt 1000000)
      = .finite false m := by
    simp only [million_eq, Double.mul, Double.ofUnits, hm, if_pos small, bne_self_eq_false]
  -- the definition is opened as a function, since applied to a number it would be computed
  have opened (f : Bool → Nat → Int) (hf : f = microsecondsOf)
      : f false units = (roundQuotient (units / one * 1000000 * one + m) one : Nat) := by
    delta microsecondsOf at hf
    subst hf
    dsimp only
    rw [product]
    exact roundQuotientInt_natCast (units / one * 1000000 * one + m) one
  rw [opened _ rfl, Nat.cast_le, Nat.cast_le]
  constructor
  · exact Double.le_roundQuotient_of_le Double.one_pos (Nat.le_add_right _ m)
  · refine Double.roundQuotient_le_of_le Double.one_pos ?_
    rw [Nat.add_mul]
    exact Nat.add_le_add_left fraction _

-----------------------------------------------------------------------------------------
-- The limit
-----------------------------------------------------------------------------------------

/-- In the last second before the limit doubles are a sixty-fourth of a second apart. -/
theorem sixtyFourth_dvd {units : Nat} (exact_ : Double.Representable units)
    (last : units / one + 1 = limit)
    : ∃ t, one = 64 * t ∧ t ∣ units := by
  have floor : (limit - 1) * one ≤ units := by
    rw [← Nat.le_div_iff_mul_le Double.one_pos, ← last]
    exact Nat.le_refl _
  have ceiling : units < limit * one := by
    rw [← Nat.div_lt_iff_lt_mul Double.one_pos]
    omega
  have power {n : Nat} (k : Nat) (h : one = 2 ^ n) : 2 ^ (k + n) = 2 ^ k * one := by
    rw [h, Nat.pow_add]
  have spaced : Double.spacing units = 2 ^ 1068 := by
    apply Double.spacing_eq
    · rw [show 52 + 1068 = 46 + 1074 from rfl, power 46 Double.one_eq]
      exact Nat.le_trans (Nat.mul_le_mul_right _ (by decide)) floor
    · rw [show 53 + 1068 = 47 + 1074 from rfl, power 47 Double.one_eq]
      exact Nat.lt_of_lt_of_le ceiling (Nat.mul_le_mul_right _ (by decide))
  exact ⟨2 ^ 1068, by rw [Double.one_eq, ← Nat.pow_add 2 6 1068], spaced ▸ exact_⟩

/-- Below the limit the magnitudes of doubles leave out the last sixty-fourth of a second, so
rounding does not reach the limit; further below it, a whole second is left.
-/
theorem microsecondsOf_lt {units : Nat} (exact_ : Double.Representable units)
    (h : units / one < limit)
    : microsecondsOf false units < (limit * 1000000 : Nat) := by
  by_cases last : units / one + 1 = limit
  · obtain ⟨t, hone, k, hk⟩ := sixtyFourth_dvd exact_ last
    have part : units % one * 1000000 ≤ 984375 * one := by
      rw [hk, hone, Nat.mul_comm 64 t, Nat.mul_mod_mul_left]
      have := Nat.mod_lt k (show 0 < 64 by decide)
      calc t * (k % 64) * 1000000 ≤ t * 63 * 1000000 := by gcongr; omega
        _ = 984375 * (t * 64) := by ring
    obtain ⟨-, upper⟩ := microsecondsOf_bounds (by decide) part
    omega
  · obtain ⟨-, upper⟩ := microsecondsOf_bounds (Nat.le_refl _) (fraction_le units)
    omega

theorem checked_error_iff {microseconds : Int} (nonneg : 0 ≤ microseconds)
    : (∃ fault, checked microseconds = .error fault)
      ↔ (limit * 1000000 : Nat) ≤ microseconds := by
  have days : 999999999 < microseconds / Instant.day
      ↔ (limit * 1000000 : Nat) ≤ microseconds := by
    simp only [Instant.day, Instant.second, limit]
    omega
  have positive : 0 ≤ microseconds / Instant.day := Int.ediv_nonneg nonneg (by decide)
  rw [← days]
  unfold checked
  dsimp only
  split
  · simp only [Except.error.injEq, exists_eq', true_iff]
    omega
  · split
    · simp only [Except.error.injEq, exists_eq', true_iff]
      omega
    · simp only [reduceCtorEq, exists_false, false_iff]
      omega

/-- A number of seconds that is not negative is no span exactly if it is undefined, infinite, or
at least a thousand million days.
-/
theorem toMicroseconds_error_iff {x : Double} (proper : x.Proper) (nonneg : x.lt .zero = false)
    : (∃ fault, (Seconds.real x).toMicroseconds = .error fault)
      ↔ x.isFinite = false ∨ (Double.ofInt limit).le x = true := by
  match x with
  | .nan => simp [toMicroseconds, Double.isFinite]
  | .infinite _ => simp [toMicroseconds, Double.isFinite]
  | .finite true units =>
      obtain rfl : units = 0 := by
        simp only [Double.lt, Double.position?, Double.zero, Double.signed,
          Bool.false_eq_true, if_true, if_false, decide_eq_false_iff_not] at nonneg
        omega
      have none : (Seconds.real (.finite true 0)).toMicroseconds = .ok 0 := by decide +kernel
      have small : (Double.ofInt limit).le (.finite true 0) = false := by decide +kernel
      simp [none, small, Double.isFinite]
  | .finite false units =>
      have reaches : (Double.ofInt limit).le (.finite false units) = true
          ↔ limit ≤ units / one := by
        rw [limit_eq, Nat.le_div_iff_mul_le Double.one_pos]
        simp only [Double.le, Double.position?, Double.signed, Bool.false_eq_true, if_false,
          decide_eq_true_eq]
        exact Int.ofNat_le
      obtain ⟨lower, -⟩ := microsecondsOf_bounds (Nat.le_refl _) (fraction_le units)
      rw [reaches]
      simp only [toMicroseconds, Double.isFinite, Bool.true_eq_false, false_or]
      rw [checked_error_iff (by omega)]
      constructor
      · intro h
        by_contra below
        exact absurd h (Int.not_le.2 (microsecondsOf_lt proper.1 (Nat.lt_of_not_le below)))
      · intro h
        exact Int.le_trans (Int.ofNat_le.2 (Nat.mul_le_mul_right 1000000 h)) lower

end NameserverAudit.Seconds
