import Mathlib.Algebra.Order.Ring.Nat
import Mathlib.Data.Nat.Log
import Mathlib.Tactic.Linarith
import Mathlib.Tactic.Ring
import NameserverAudit.Number.Double

/-!
Rounding of magnitudes. Rounding a quotient keeps the order of quotients, gives the same for
equal quotients, and leaves representable magnitudes alone. Main statements: rounding to decimal
places keeps the order of numbers, rounding twice is rounding once, and which integers have a
finite nearest number.
-/

namespace NameserverAudit.Double

-----------------------------------------------------------------------------------------
-- Rounding a quotient to a natural number
-----------------------------------------------------------------------------------------

/-- The rounded quotient is within a half of the quotient, and an even number where it is just
a half away.
-/
theorem roundQuotient_near (num : Nat) {den : Nat} (hden : 0 < den)
    : (2 * num < (2 * roundQuotient num den + 1) * den
        ∨ 2 * num = (2 * roundQuotient num den + 1) * den ∧ roundQuotient num den % 2 = 0)
      ∧ (2 * roundQuotient num den * den < 2 * num + den
        ∨ 2 * roundQuotient num den * den = 2 * num + den
          ∧ roundQuotient num den % 2 = 0) := by
  have split_num : den * (num / den) + num % den = num := Nat.div_add_mod num den
  have small : num % den < den := Nat.mod_lt num hden
  generalize hq : num / den = q at split_num
  generalize hr : num % den = r at split_num small
  simp only [roundQuotient, hq, hr]
  have expand (k : Nat) : (2 * (q + k) + 1) * den = 2 * (den * q) + 2 * (k * den) + den := by
    ring
  have expand' (k : Nat) : 2 * (q + k) * den = 2 * (den * q) + 2 * (k * den) := by ring
  have h0 := expand 0
  have h1 := expand 1
  have h0' := expand' 0
  have h1' := expand' 1
  simp only [Nat.zero_mul, Nat.one_mul, Nat.add_zero, Nat.mul_zero] at h0 h1 h0' h1'
  by_cases low : 2 * r < den
  · rw [if_pos low]
    omega
  by_cases high : den < 2 * r
  · rw [if_neg low, if_pos high]
    omega
  · rw [if_neg low, if_neg high]
    rcases Nat.mod_two_eq_zero_or_one q with even | odd
    · simp only [even, Nat.add_zero, and_true]
      omega
    · rw [odd]
      omega

/-- Two rounded quotients are in the order of the quotients. -/
theorem roundQuotient_le {a b c d : Nat} (hb : 0 < b) (hd : 0 < d) (h : a * d ≤ c * b)
    : roundQuotient a b ≤ roundQuotient c d := by
  by_contra hlt
  obtain ⟨-, below⟩ := roundQuotient_near a hb
  obtain ⟨above, -⟩ := roundQuotient_near c hd
  generalize roundQuotient a b = r at *
  generalize roundQuotient c d = s at *
  have order : 2 * a * d ≤ 2 * c * b := by
    rw [Nat.mul_assoc, Nat.mul_assoc]
    omega
  -- both quotients lie half way between `s` and `s + 1`
  have lower : 2 * r * b * d ≤ 2 * a * d + b * d := by
    rw [← Nat.add_mul]
    exact Nat.mul_le_mul_right d (by omega)
  have upper : 2 * c * b ≤ 2 * s * b * d + b * d := by
    have : 2 * c * b ≤ (2 * s + 1) * d * b := Nat.mul_le_mul_right b (by omega)
    calc 2 * c * b ≤ (2 * s + 1) * d * b := this
      _ = 2 * s * b * d + b * d := by ring
  have pos : 0 < b * d := Nat.mul_pos hb hd
  have apart : 2 * s * b * d + 2 * (b * d) ≤ 2 * r * b * d := by
    have : (s + 1) * (2 * b * d) ≤ r * (2 * b * d) := Nat.mul_le_mul_right _ (by omega)
    calc 2 * s * b * d + 2 * (b * d) = (s + 1) * (2 * b * d) := by ring
      _ ≤ r * (2 * b * d) := this
      _ = 2 * r * b * d := by ring
  have next : r = s + 1 := by
    by_contra far
    have : (s + 2) * (2 * b * d) ≤ r * (2 * b * d) := Nat.mul_le_mul_right _ (by omega)
    have : 2 * s * b * d + 4 * (b * d) ≤ 2 * r * b * d := by
      calc 2 * s * b * d + 4 * (b * d) = (s + 2) * (2 * b * d) := by ring
        _ ≤ r * (2 * b * d) := this
        _ = 2 * r * b * d := by ring
    omega
  have left : 2 * r * b = 2 * a + b := by
    by_contra ne
    have : (2 * r * b + 1) * d ≤ (2 * a + b) * d := Nat.mul_le_mul_right d (by omega)
    simp only [Nat.add_mul, Nat.one_mul] at this
    omega
  have right : 2 * c = (2 * s + 1) * d := by
    by_contra ne
    have : (2 * c + 1) * b ≤ (2 * s + 1) * d * b := Nat.mul_le_mul_right b (by omega)
    have expand : (2 * s + 1) * d * b = 2 * s * b * d + b * d := by ring
    rw [expand, Nat.add_mul] at this
    omega
  omega

theorem roundQuotient_le_of_le {num den k : Nat} (hden : 0 < den) (h : num ≤ k * den)
    : roundQuotient num den ≤ k := by
  have := roundQuotient_le hden hden (Nat.mul_le_mul_right den h)
  rwa [roundQuotient_mul hden] at this

theorem le_roundQuotient_of_le {num den k : Nat} (hden : 0 < den) (h : k * den ≤ num)
    : k ≤ roundQuotient num den := by
  have := roundQuotient_le hden hden (Nat.mul_le_mul_right den h)
  rwa [roundQuotient_mul hden] at this

/-- A number less than a half away from the quotient is its rounding. -/
theorem roundQuotient_eq {num den k : Nat} (hden : 0 < den)
    (above : 2 * num < (2 * k + 1) * den) (below : 2 * k * den < 2 * num + den)
    : roundQuotient num den = k := by
  obtain ⟨hi, lo⟩ := roundQuotient_near num hden
  generalize roundQuotient num den = r at *
  refine Nat.le_antisymm ?_ ?_
  · by_contra hlt
    have : (k + 1) * (2 * den) ≤ r * (2 * den) := Nat.mul_le_mul_right _ (by omega)
    have e : (k + 1) * (2 * den) = (2 * k + 1) * den + den := by ring
    have e' : r * (2 * den) = 2 * r * den := by ring
    omega
  · by_contra hlt
    have : (r + 1) * (2 * den) ≤ k * (2 * den) := Nat.mul_le_mul_right _ (by omega)
    have e : (r + 1) * (2 * den) = (2 * r + 1) * den + den := by ring
    have e' : k * (2 * den) = 2 * k * den := by ring
    omega

-----------------------------------------------------------------------------------------
-- Spacing and representable magnitudes
-----------------------------------------------------------------------------------------

/-- A magnitude on the grid of its own size. -/
def Representable (n : Nat) : Prop :=
  spacing n ∣ n

instance (n : Nat) : Decidable (Representable n) :=
  inferInstanceAs (Decidable (_ ∣ _))

theorem spacing_pos (n : Nat) : 0 < spacing n :=
  Nat.pow_pos (by decide)

theorem spacing_eq_one {n : Nat} (h : n < 2 ^ 53) : spacing n = 1 := by
  have : n.log2 + 1 - 53 = 0 := by
    by_cases hn : n = 0
    · subst hn
      decide
    · have := (Nat.log2_lt hn).2 h
      omega
  rw [spacing, this]

/-- The spacing between two powers of two. -/
theorem spacing_eq {n s : Nat} (lo : 2 ^ (52 + s) ≤ n) (hi : n < 2 ^ (53 + s))
    : spacing n = 2 ^ s := by
  have hn : n ≠ 0 := by
    have := Nat.pow_pos (n := 52 + s) (show 0 < 2 by decide)
    omega
  have : n.log2 = 52 + s := (Nat.log2_eq_iff hn).2 ⟨lo, by rwa [show 52 + s + 1 = 53 + s by omega]⟩
  rw [spacing, this, show 52 + s + 1 - 53 = s by omega]
  rfl

/-- The spacing at a number of at least 54 bits, and the powers of two around the number. -/
theorem spacing_cases (n : Nat)
    : (n < 2 ^ 53 ∧ spacing n = 1)
      ∨ ∃ s, 2 ^ (52 + s) ≤ n ∧ n < 2 ^ (53 + s) ∧ spacing n = 2 ^ s := by
  by_cases h : n < 2 ^ 53
  · exact .inl ⟨h, spacing_eq_one h⟩
  · have hn : n ≠ 0 := by
      intro e
      subst e
      exact h (by decide)
    have big : 53 ≤ n.log2 := (Nat.le_log2 hn).2 (by omega)
    have lo : 2 ^ (52 + (n.log2 - 52)) ≤ n := by
      rw [show 52 + (n.log2 - 52) = n.log2 by omega]
      exact Nat.log2_self_le hn
    have hi : n < 2 ^ (53 + (n.log2 - 52)) := by
      rw [show 53 + (n.log2 - 52) = n.log2 + 1 by omega]
      exact Nat.lt_log2_self
    exact .inr ⟨n.log2 - 52, lo, hi, spacing_eq lo hi⟩

/-- At most 53 bits, moved up by any number of places, are representable. -/
theorem representable_mul_pow {r : Nat} (s : Nat) (h : r ≤ 2 ^ 53) : Representable (r * 2 ^ s) := by
  rcases spacing_cases (r * 2 ^ s) with ⟨-, one⟩ | ⟨t, lo, -, eq⟩
  · rw [Representable, one]
    exact Nat.one_dvd _
  · rw [Representable, eq]
    by_cases hts : t ≤ s
    · exact Dvd.dvd.mul_left (Nat.pow_dvd_pow 2 hts) r
    · -- then the number is the power of two above the grid
      have bound : r * 2 ^ s ≤ 2 ^ (53 + s) := by
        rw [Nat.pow_add]
        exact Nat.mul_le_mul_right _ h
      have same : r * 2 ^ s = 2 ^ (52 + t) := by
        refine Nat.le_antisymm (bound.trans ?_) lo
        exact Nat.pow_le_pow_right (by decide) (by omega)
      rw [same]
      exact Nat.pow_dvd_pow 2 (by omega)

-----------------------------------------------------------------------------------------
-- The nearest representable magnitude
-----------------------------------------------------------------------------------------

/-- The nearest magnitude, in full: so many steps of the grid at the quotient, of which there
are at most as 53 bits count.
-/
theorem nearest_steps (num : Nat) {den : Nat} (hden : 0 < den)
    : ∃ s, spacing (num / den) = 2 ^ s
      ∧ nearest num den = roundQuotient num (den * 2 ^ s) * 2 ^ s
      ∧ roundQuotient num (den * 2 ^ s) ≤ 2 ^ 53
      ∧ (s = 0 ∨ 2 ^ 52 ≤ roundQuotient num (den * 2 ^ s)) := by
  have steps {s : Nat} (hi : num / den < 2 ^ (53 + s))
      : roundQuotient num (den * 2 ^ s) ≤ 2 ^ 53 := by
    refine roundQuotient_le_of_le (Nat.mul_pos hden (Nat.pow_pos (by decide))) ?_
    have := (Nat.div_lt_iff_lt_mul hden).1 hi
    calc num ≤ 2 ^ (53 + s) * den := this.le
      _ = 2 ^ 53 * (den * 2 ^ s) := by rw [Nat.pow_add]; ring
  rcases spacing_cases (num / den) with ⟨hi, one⟩ | ⟨s, lo, hi, eq⟩
  · refine ⟨0, one, ?_, steps hi, .inl rfl⟩
    simp only [nearest, one, Nat.pow_zero]
  · refine ⟨s, eq, by simp only [nearest, eq], steps hi, .inr ?_⟩
    refine le_roundQuotient_of_le (Nat.mul_pos hden (Nat.pow_pos (by decide))) ?_
    have := (Nat.le_div_iff_mul_le hden).1 lo
    calc 2 ^ 52 * (den * 2 ^ s) = 2 ^ (52 + s) * den := by rw [Nat.pow_add]; ring
      _ ≤ num := this

theorem representable_nearest (num : Nat) {den : Nat} (hden : 0 < den)
    : Representable (nearest num den) := by
  obtain ⟨s, -, eq, few, -⟩ := nearest_steps num hden
  rw [eq]
  exact representable_mul_pow s few

/-- A representable magnitude is the nearest one to itself, however the quotient is written. -/
theorem nearest_mul {n den : Nat} (hden : 0 < den) (h : Representable n)
    : nearest (n * den) den = n := by
  obtain ⟨k, hk⟩ := h
  have pos : 0 < den * spacing n := Nat.mul_pos hden (spacing_pos n)
  have whole : n * den = k * (den * spacing n) := by
    calc n * den = spacing n * k * den := by rw [← hk]
      _ = k * (den * spacing n) := by ring
  simp only [nearest, Nat.mul_div_cancel n hden]
  rw [whole, roundQuotient_mul pos, Nat.mul_comm]
  exact hk.symm

/-- The nearest magnitudes to two quotients are in the order of the quotients. On one grid that
is rounding to whole steps; on two grids the power of two between them stands between.
-/
theorem nearest_le {a b c d : Nat} (hb : 0 < b) (hd : 0 < d) (h : a * d ≤ c * b)
    : nearest a b ≤ nearest c d := by
  have floors : a / b ≤ c / d := by
    rw [Nat.le_div_iff_mul_le hd]
    have := Nat.div_mul_le_self a b
    by_contra hlt
    have step : a / b * b * d ≤ a * d := Nat.mul_le_mul_right d this
    have : (c + 1) * b ≤ a / b * d * b := Nat.mul_le_mul_right b (by omega)
    have swap : a / b * b * d = a / b * d * b := by ring
    rw [Nat.add_mul, Nat.one_mul] at this
    omega
  obtain ⟨s, hs, eq, few, -⟩ := nearest_steps a hb
  obtain ⟨t, ht, eq', -, many⟩ := nearest_steps c hd
  have pow_pos (k : Nat) : 0 < 2 ^ k := Nat.pow_pos (by decide)
  rcases Nat.lt_trichotomy s t with lt | rfl | gt
  · have top : nearest a b ≤ 2 ^ (53 + s) := by
      rw [eq, Nat.pow_add]
      exact Nat.mul_le_mul_right _ few
    have bottom : 2 ^ (52 + t) ≤ nearest c d := by
      rw [eq', Nat.pow_add]
      exact Nat.mul_le_mul_right _ (many.resolve_left (by omega))
    exact top.trans ((Nat.pow_le_pow_right (by decide) (by omega)).trans bottom)
  · rw [eq, eq']
    refine Nat.mul_le_mul_right _ ?_
    refine roundQuotient_le (Nat.mul_pos hb (pow_pos s)) (Nat.mul_pos hd (pow_pos s)) ?_
    calc a * (d * 2 ^ s) = a * d * 2 ^ s := by ring
      _ ≤ c * b * 2 ^ s := Nat.mul_le_mul_right _ h
      _ = c * (b * 2 ^ s) := by ring
  · -- a coarser grid below would contradict the order of the quotients
    rcases spacing_cases (a / b) with ⟨-, one⟩ | ⟨s', lo, -, es⟩
    · have : 2 ^ 1 ≤ 2 ^ s := Nat.pow_le_pow_right (by decide) (by omega)
      omega
    · obtain rfl : s' = s := Nat.pow_right_injective (le_refl 2) (es.symm.trans hs)
      rcases spacing_cases (c / d) with ⟨hi, one⟩ | ⟨t', -, hi, et⟩
      · have : 2 ^ 53 ≤ 2 ^ (52 + s') := Nat.pow_le_pow_right (by decide) (by omega)
        omega
      · obtain rfl : t' = t := Nat.pow_right_injective (le_refl 2) (et.symm.trans ht)
        have : 2 ^ (53 + t') ≤ 2 ^ (52 + s') := Nat.pow_le_pow_right (by decide) (by omega)
        omega

/-- Equal quotients have one nearest magnitude. -/
theorem nearest_congr {a b c d : Nat} (hb : 0 < b) (hd : 0 < d) (h : a * d = c * b)
    : nearest a b = nearest c d :=
  Nat.le_antisymm (nearest_le hb hd h.le) (nearest_le hd hb h.ge)

theorem ofUnits_congr {negative : Bool} {a b c d : Nat} (hb : 0 < b) (hd : 0 < d)
    (h : a * d = c * b)
    : ofUnits negative a b = ofUnits negative c d := by
  simp only [ofUnits, nearest_congr hb hd h]

-----------------------------------------------------------------------------------------
-- Rounding to decimal places
-----------------------------------------------------------------------------------------

/-- The count of the last decimal place that is nearest to a magnitude. -/
def inPlaces (places units : Nat) : Nat :=
  roundQuotient (units * Nat.pow 10 places) one

/-- The magnitude that is nearest to a magnitude rounded to decimal places. -/
def onPlaces (places units : Nat) : Nat :=
  nearest (inPlaces places units * one) (Nat.pow 10 places)

theorem one_eq : one = 2 ^ 1074 := by
  simp only [one, Nat.pow_eq]

theorem one_pos : 0 < one := by
  simp only [one_eq, Nat.two_pow_pos]

theorem scale_pos (places : Nat) : 0 < Nat.pow 10 places :=
  Nat.pow_pos (by decide)

theorem roundPlaces_finite (places : Nat) (negative : Bool) (units : Nat)
    : (finite negative units).roundPlaces places
      = if onPlaces places units < overflow then .finite negative (onPlaces places units)
        else .infinite negative :=
  rfl

theorem onPlaces_le {places m n : Nat} (h : m ≤ n) : onPlaces places m ≤ onPlaces places n := by
  refine nearest_le (scale_pos places) (scale_pos places) ?_
  have counts : inPlaces places m ≤ inPlaces places n :=
    roundQuotient_le one_pos one_pos
      (Nat.mul_le_mul_right _ (Nat.mul_le_mul_right _ h))
  exact Nat.mul_le_mul_right _ (Nat.mul_le_mul_right _ counts)

/-- A representable magnitude with the decimal places is left alone. -/
theorem onPlaces_of_dvd {places units : Nat} (exact_ : one ∣ units * Nat.pow 10 places)
    (h : Representable units)
    : onPlaces places units = units := by
  obtain ⟨k, hk⟩ := exact_
  rw [onPlaces, inPlaces, hk, Nat.mul_comm one k, roundQuotient_mul one_pos, Nat.mul_comm k one,
    ← hk, nearest_mul (scale_pos places) h]

/-- Strictly between two powers of two, a magnitude less than half a step away from a quotient
is the nearest one to it.
-/
theorem nearest_eq {num den r s : Nat} (hden : 0 < den) (lo : 2 ^ 52 < r) (hi : r < 2 ^ 53)
    (above : 2 * num < (2 * r + 1) * (den * 2 ^ s))
    (below : 2 * r * (den * 2 ^ s) < 2 * num + den * 2 ^ s)
    : nearest num den = r * 2 ^ s := by
  have step : 0 < den * 2 ^ s := Nat.mul_pos hden (Nat.pow_pos (by decide))
  have floor_lo : 2 ^ (52 + s) ≤ num / den := by
    rw [Nat.le_div_iff_mul_le hden]
    have := Nat.mul_le_mul_right (den * 2 ^ s) (show 2 * (2 ^ 52) + 1 ≤ 2 * r by omega)
    have expand : 2 ^ (52 + s) * den = 2 ^ 52 * (den * 2 ^ s) := by rw [Nat.pow_add]; ring
    rw [Nat.add_mul, Nat.mul_assoc, Nat.one_mul] at this
    omega
  have floor_hi : num / den < 2 ^ (53 + s) := by
    rw [Nat.div_lt_iff_lt_mul hden]
    have := Nat.mul_le_mul_right (den * 2 ^ s) (show 2 * r + 1 ≤ 2 * (2 ^ 53) by omega)
    have expand : 2 ^ (53 + s) * den = 2 ^ 53 * (den * 2 ^ s) := by rw [Nat.pow_add]; ring
    rw [Nat.mul_assoc] at this
    omega
  simp only [nearest, spacing_eq floor_lo floor_hi]
  rw [roundQuotient_eq step above below]

/-- Where the grid is coarser than the decimal places, the power of two at its beginning is a
whole number of places: the places are not so many that their odd part counts.
-/
theorem dvd_of_coarse {places s y : Nat} (few : places ≤ 22)
    (coarse : one < Nat.pow 10 places * 2 ^ s) (hy : 2 ^ (52 + s) ∣ y)
    : one ∣ y * Nat.pow 10 places := by
  have scaled : Nat.pow 10 places = 2 ^ places * 5 ^ places := Nat.mul_pow 2 5 places
  have odd_part : 5 ^ places ≤ 2 ^ 52 :=
    (Nat.pow_le_pow_right (by decide) few).trans (by decide)
  have large : one ≤ 2 ^ (52 + s + places) := by
    calc one ≤ 2 ^ places * 5 ^ places * 2 ^ s := by rw [← scaled]; exact coarse.le
      _ ≤ 2 ^ places * 2 ^ 52 * 2 ^ s :=
        Nat.mul_le_mul_right _ (Nat.mul_le_mul_left _ odd_part)
      _ = 2 ^ (52 + s + places) := by rw [Nat.pow_add, Nat.pow_add]; ring
  have exponents : 1074 ≤ 52 + s + places := by
    rw [one_eq] at large
    exact (Nat.pow_le_pow_iff_right (by decide)).1 large
  obtain ⟨k, rfl⟩ := hy
  rw [one_eq, scaled, show 2 ^ (52 + s) * k * (2 ^ places * 5 ^ places)
    = 2 ^ (52 + s + places) * (k * 5 ^ places) by rw [Nat.pow_add _ (52 + s)]; ring]
  exact Dvd.dvd.mul_right (Nat.pow_dvd_pow 2 exponents) _

/-- A magnitude that is near a decimal is left alone. Where the grid of magnitudes is finer
than the decimal places, the same decimal is found again; where it is coarser, the decimal that
is found is too near for another magnitude to be nearer.
-/
theorem onPlaces_nearest {places : Nat} (few : places ≤ 22) (q : Nat)
    : onPlaces places (nearest (q * one) (Nat.pow 10 places))
      = nearest (q * one) (Nat.pow 10 places) := by
  have scale := scale_pos places
  have represented := representable_nearest (q * one) scale
  obtain ⟨s, -, eq, hi, lo⟩ := nearest_steps (q * one) scale
  have step : 0 < Nat.pow 10 places * 2 ^ s := Nat.mul_pos scale (Nat.pow_pos (by decide))
  have near := roundQuotient_near (q * one) step
  generalize hr : roundQuotient (q * one) (Nat.pow 10 places * 2 ^ s) = r at near eq hi lo
  generalize hy : nearest (q * one) (Nat.pow 10 places) = y at eq represented ⊢
  have product : y * Nat.pow 10 places = r * (Nat.pow 10 places * 2 ^ s) := by
    rw [eq]
    ring
  have expand (n d : Nat) : (2 * n + 1) * d = 2 * (n * d) + d := by ring
  have double (n d : Nat) : 2 * n * d = 2 * (n * d) := by ring
  rw [expand, double] at near
  by_cases whole : one ∣ y * Nat.pow 10 places
  · exact onPlaces_of_dvd whole represented
  by_cases fine : Nat.pow 10 places * 2 ^ s < one
  · have same : inPlaces places y = q := by
      refine roundQuotient_eq one_pos ?_ ?_
      · rw [product, expand]
        omega
      · rw [product, double]
        omega
    rw [onPlaces, same, hy]
  · have coarse : one < Nat.pow 10 places * 2 ^ s := by
      refine lt_of_le_of_ne (Nat.le_of_not_lt fine) fun e => whole ?_
      rw [product, ← e]
      exact Nat.dvd_mul_left one r
    have between : 2 ^ 52 < r ∧ r < 2 ^ 53 := by
      by_contra edge
      have small : Nat.pow 10 places < one :=
        Nat.lt_of_le_of_lt (Nat.pow_le_pow_right (by decide) few) (by decide +kernel)
      have some_bits : s ≠ 0 := by
        rintro rfl
        rw [Nat.pow_zero, Nat.mul_one] at fine
        exact fine small
      refine whole (dvd_of_coarse few coarse (y := y) ?_)
      rw [eq]
      by_cases bottom : r = 2 ^ 52
      · rw [bottom, ← Nat.pow_add]
      · have top : r = 2 ^ 53 := by omega
        rw [top, ← Nat.pow_add]
        exact Nat.pow_dvd_pow 2 (by omega)
    have found := roundQuotient_near (y * Nat.pow 10 places) one_pos
    rw [← inPlaces, product, expand, double] at found
    refine (nearest_eq scale between.1 between.2 ?_ ?_).trans eq.symm
    · rw [expand]
      omega
    · rw [double]
      omega

/-- Rounding to decimal places twice is rounding once. -/
theorem roundPlaces_roundPlaces {places : Nat} (few : places ≤ 22) (x : Double)
    : (x.roundPlaces places).roundPlaces places = x.roundPlaces places := by
  match x with
  | .nan | .infinite _ => rfl
  | .finite negative units =>
      rw [roundPlaces_finite]
      split
      · next small =>
        have same : onPlaces places (onPlaces places units) = onPlaces places units :=
          onPlaces_nearest few _
        rw [roundPlaces_finite, same, if_pos small]
      · rfl

-----------------------------------------------------------------------------------------
-- The order of numbers
-----------------------------------------------------------------------------------------

/-- The place of a rounded quotient; beyond the finite numbers it is that of an infinity. -/
theorem position?_ofUnits (negative : Bool) (num den : Nat)
    : (ofUnits negative num den).position?
      = some (signed negative (min (nearest num den) overflow)) := by
  simp only [ofUnits]
  split
  · next small => rw [position?, Nat.min_eq_left (Nat.le_of_lt small)]
  · next large =>
    rw [Nat.min_eq_right (Nat.le_of_not_lt large)]
    cases negative <;> rfl

/-- The infinities are where rounding to decimal places leaves their places. -/
theorem onPlaces_overflow (places : Nat) : onPlaces places overflow = overflow := by
  have product : overflow = 2 ^ 1024 * one := by decide +kernel
  refine onPlaces_of_dvd ?_ (by decide +kernel)
  rw [product]
  exact Dvd.dvd.mul_right (Nat.dvd_mul_left _ _) _

/-- Where rounding to decimal places takes a place on the line of units. -/
def roundedPosition (places : Nat) (p : Int) : Int :=
  signed (p < 0) (min (onPlaces places p.natAbs) overflow)

theorem onPlaces_zero (places : Nat) : onPlaces places 0 = 0 :=
  onPlaces_of_dvd (by simp) (by decide)

theorem roundedPosition_signed (places : Nat) (negative : Bool) (units : Nat)
    : roundedPosition places (signed negative units)
      = signed negative (min (onPlaces places units) overflow) := by
  cases negative with
  | false =>
      have not_below : ¬(units : Int) < 0 := by omega
      simp only [roundedPosition, signed, not_below, decide_false, Bool.false_eq_true, if_false,
        Int.natAbs_natCast]
  | true =>
      by_cases zero : units = 0
      · subst zero
        simp [roundedPosition, signed, onPlaces_zero]
      · have below : -(units : Int) < 0 := by omega
        simp only [roundedPosition, signed, below, decide_true, if_true, Int.natAbs_neg,
          Int.natAbs_natCast]

theorem position?_infinite (negative : Bool)
    : (infinite negative).position? = some (signed negative overflow) := by
  cases negative <;> simp only [position?, signed, if_true, Bool.false_eq_true, if_false]

theorem position?_roundPlaces (places : Nat) (x : Double)
    : (x.roundPlaces places).position? = x.position?.map (roundedPosition places) := by
  match x with
  | .nan => rfl
  | .infinite negative =>
      simp only [roundPlaces, position?_infinite, Option.map_some, roundedPosition_signed,
        onPlaces_overflow, Nat.min_self]
  | .finite negative units =>
      have rounded : (finite negative units).roundPlaces places
          = ofUnits negative (inPlaces places units * one) (Nat.pow 10 places) := rfl
      rw [rounded, position?_ofUnits, ← onPlaces, position?, Option.map_some,
        roundedPosition_signed]

theorem roundedPosition_le (places : Nat) {p q : Int} (h : p ≤ q)
    : roundedPosition places p ≤ roundedPosition places q := by
  have apart {m n : Nat} (h : m ≤ n)
      : min (onPlaces places m) overflow ≤ min (onPlaces places n) overflow :=
    min_le_min_right overflow (onPlaces_le h)
  simp only [roundedPosition, signed, decide_eq_true_eq]
  by_cases hp : p < 0 <;> by_cases hq : q < 0
  · have := apart (show q.natAbs ≤ p.natAbs by omega)
    simp only [hp, hq, if_true]
    omega
  · simp only [hp, hq, if_true, if_false]
    omega
  · omega
  · have := apart (show p.natAbs ≤ q.natAbs by omega)
    simp only [hp, hq, if_false]
    omega

/-- Equal numbers have one place. -/
theorem same_iff {x y : Double}
    : x.same y = true ↔ ∃ p, x.position? = some p ∧ y.position? = some p := by
  unfold same
  split
  · next p q hx hy =>
    simp only [hx, hy, beq_iff_eq, Option.some.injEq, exists_eq_left']
    exact eq_comm
  · next undefined =>
    simp only [Bool.false_eq_true, false_iff]
    rintro ⟨p, hx, hy⟩
    exact undefined p p hx hy

/-- Rounding to decimal places never turns the order of two numbers around. -/
theorem not_lt_roundPlaces {places : Nat} {x y : Double} (h : x.lt y = true)
    : (y.roundPlaces places).lt (x.roundPlaces places) = false := by
  simp only [lt, position?_roundPlaces] at h ⊢
  match hx : x.position?, hy : y.position? with
  | some p, some q =>
      rw [hx, hy] at h
      have := roundedPosition_le places (Int.le_of_lt (of_decide_eq_true h))
      simpa using this
  | none, _ | some _, none => simp [hx, hy] at h

-----------------------------------------------------------------------------------------
-- Integers
-----------------------------------------------------------------------------------------

/-- The least natural number whose nearest number is infinite. -/
def integerLimit : Nat := Nat.pow 2 1024 - Nat.pow 2 970

/-- The number nearest to an integer is finite just below the limit. -/
theorem isFinite_ofInt (n : Int) : (ofInt n).isFinite = true ↔ n.natAbs < integerLimit := by
  have finite_iff : (ofInt n).isFinite = true ↔ nearest (n.natAbs * one) 1 < overflow := by
    simp only [ofInt, ofRatio, ofUnits]
    split <;> simp_all [isFinite]
  rw [finite_iff]
  refine ⟨fun small => ?_, fun small => ?_⟩
  · by_contra large
    have at_limit : nearest (integerLimit * one) 1 = overflow := by decide +kernel
    have := nearest_le Nat.one_pos Nat.one_pos
      (Nat.mul_le_mul_right 1 (Nat.mul_le_mul_right one (Nat.le_of_not_lt large)))
    omega
  · have below_limit : nearest ((integerLimit - 1) * one) 1 < overflow := by decide +kernel
    have := nearest_le Nat.one_pos Nat.one_pos
      (Nat.mul_le_mul_right 1 (Nat.mul_le_mul_right one (Nat.le_sub_one_of_lt small)))
    exact Nat.lt_of_le_of_lt this below_limit

end NameserverAudit.Double
