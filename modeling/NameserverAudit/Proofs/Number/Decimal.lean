import Mathlib.Tactic.Ring
import NameserverAudit.Number.Decimal
import NameserverAudit.Proofs.Number.Rounding

/-!
Decimal numbers and doubles. A decimal number may be written with more or fewer zeros at its
end, and its exact value reads back. Main statement: the shortest decimal of a number, and
whatever its digits without the zeros stand for, reads back as the number.
-/

namespace NameserverAudit.Double

-- the limits are powers that no step below should compute
attribute [local irreducible] one overflow

/-- An infinity, no number, or a finite number with a magnitude that doubles have. -/
def Proper : Double → Prop
  | .finite _ units => Representable units ∧ units < overflow
  | _ => True

theorem proper_ofUnits (negative : Bool) (num : Nat) {den : Nat} (hden : 0 < den)
    : (ofUnits negative num den).Proper := by
  simp only [ofUnits]
  split
  · next small => exact ⟨representable_nearest num hden, small⟩
  · trivial

/-- Rounding to decimal places gives a number that doubles have, whatever is rounded. -/
theorem proper_roundPlaces (places : Nat) (x : Double) : (x.roundPlaces places).Proper :=
  match x with
  | .nan | .infinite _ => trivial
  | .finite negative _ => proper_ofUnits negative _ (scale_pos places)

namespace Decimal

-----------------------------------------------------------------------------------------
-- Digits
-----------------------------------------------------------------------------------------

/-- Zeros at the end of the digits are a power of ten, by induction on their number. -/
theorem toDigits_mul_pow {n : Nat} (hn : 0 < n) (k : Nat)
    : Nat.toDigits 10 (n * 10 ^ k) = Nat.toDigits 10 n ++ List.replicate k '0' := by
  induction k with
  | zero => simp
  | succ k ih =>
      have pos : 0 < n * 10 ^ k := Nat.mul_pos hn (Nat.pow_pos (by decide))
      have tens : n * 10 ^ (k + 1) = 10 * (n * 10 ^ k) + 0 := by ring
      rw [tens, ← Nat.toDigits_append_toDigits (by decide) pos (by decide), ih,
        List.append_assoc, List.replicate_succ']
      rfl

theorem length_mul_pow {n : Nat} (hn : 0 < n) (k : Nat)
    : length (n * 10 ^ k) = length n + k := by
  simp only [length, toDigits_mul_pow hn k, List.length_append, List.length_replicate]

theorem significant_of_concat {n : Nat} {front : List Char} {last : Char}
    (h : Nat.toDigits 10 n = front ++ [last]) (digit : last ≠ '0')
    : significant n = (Nat.toDigits 10 n, 0) := by
  simp [significant, h, digit]

theorem significant_of_zero {n m : Nat} (h : Nat.toDigits 10 n = Nat.toDigits 10 m ++ ['0'])
    : significant n = ((significant m).1, (significant m).2 + 1) := by
  have short : ((Nat.toDigits 10 m).reverse.dropWhile (· = '0')).length
      ≤ (Nat.toDigits 10 m).reverse.length :=
    (List.dropWhile_suffix _).length_le
  simp only [significant, h, List.reverse_append, List.reverse_singleton,
    List.singleton_append, List.dropWhile_cons, decide_true, if_true, List.length_cons]
  rw [Nat.sub_add_comm short]

/-- A positive number is its significant digits and so many zeros. The induction takes the last
digit off.
-/
theorem significant_eq {n : Nat} (hn : 0 < n)
    : ∃ m zeros, significant n = (Nat.toDigits 10 m, zeros) ∧ n = m * 10 ^ zeros := by
  induction n using Nat.strongRecOn with
  | ind n ih =>
      by_cases last : n % 10 = 0
      · have pos : 0 < n / 10 := by omega
        obtain ⟨m, zeros, heq, hm⟩ := ih (n / 10) (Nat.div_lt_self hn (by decide)) pos
        have digits : Nat.toDigits 10 n = Nat.toDigits 10 (n / 10) ++ ['0'] := by
          rw [Nat.toDigits_of_base_le (by decide) (by omega), last]
          rfl
        refine ⟨m, zeros + 1, ?_, ?_⟩
        · rw [significant_of_zero digits, heq]
        · rw [Nat.pow_succ, ← Nat.mul_assoc, ← hm]
          omega
      · have ends : ∃ front, Nat.toDigits 10 n = front ++ [(n % 10).digitChar] := by
          rw [Nat.toDigits_eq_if (by decide)]
          split
          · next small => exact ⟨[], by rw [Nat.mod_eq_of_lt small]; rfl⟩
          · exact ⟨_, rfl⟩
        obtain ⟨front, hfront⟩ := ends
        have digits : ∀ d < 10, d ≠ 0 → d.digitChar ≠ '0' := by decide
        have digit := digits (n % 10) (Nat.mod_lt n (by decide)) last
        exact ⟨n, 0, significant_of_concat hfront digit, by simp⟩

-----------------------------------------------------------------------------------------
-- Reading decimals
-----------------------------------------------------------------------------------------

theorem ofRatio_congr {negative : Bool} {a b c d : Nat} (hb : 0 < b) (hd : 0 < d)
    (h : a * d = c * b)
    : ofRatio negative a b = ofRatio negative c d := by
  refine ofUnits_congr hb hd ?_
  calc a * one * d = a * d * one := by ring
    _ = c * one * b := by rw [h]; ring

/-- Zeros at the end of the digits may be written into the exponent. -/
theorem toDouble_shift (negative : Bool) (n k : Nat) (e : Int)
    : (⟨n * 10 ^ k, e⟩ : Decimal).toDouble negative
      = (⟨n, e + k⟩ : Decimal).toDouble negative := by
  by_cases zero : n = 0
  · subst zero
    simp [toDouble]
  have pow_pos (k : Nat) : 0 < 10 ^ k := Nat.pow_pos (by decide)
  have some_digits : n * 10 ^ k ≠ 0 := Nat.mul_ne_zero zero (pow_pos k).ne'
  have places : (length (n * 10 ^ k) : Int) + e = length n + (e + k) := by
    rw [length_mul_pow (Nat.pos_of_ne_zero zero)]
    omega
  -- only the quotient differs, by powers of ten in both its parts
  simp only [toDouble, some_digits, zero, if_false, places, Nat.pow_eq]
  by_cases whole : 0 ≤ e
  · have whole' : 0 ≤ e + k := by omega
    have exponent : (e + k).toNat = k + e.toNat := by omega
    rw [if_pos whole, if_pos whole', exponent, Nat.pow_add, Nat.mul_assoc]
  · rw [if_neg whole]
    by_cases whole' : 0 ≤ e + k
    · have exponent : k = (e + k).toNat + (-e).toNat := by omega
      rw [if_pos whole']
      congr 2
      refine ofRatio_congr (pow_pos _) Nat.one_pos ?_
      conv_lhs => rw [exponent, Nat.pow_add]
      ring
    · have exponent : (-e).toNat = k + (-(e + k)).toNat := by omega
      rw [if_neg whole']
      congr 2
      refine ofRatio_congr (pow_pos _) (pow_pos _) ?_
      rw [exponent, Nat.pow_add, Nat.mul_assoc]

theorem ofUnits_of_finite {num den units : Nat}
    (h : ofUnits false num den = .finite false units) (negative : Bool)
    : ofUnits negative num den = .finite negative units := by
  simp only [ofUnits] at h ⊢
  split at h
  · next small =>
    rw [if_pos small]
    simpa using h
  · cases h

/-- The sign of the result is the sign that is given. -/
theorem toDouble_of_readsAs {units : Nat} {d : Decimal} (h : ReadsAs units d) (negative : Bool)
    : d.toDouble negative = .finite negative units := by
  simp only [ReadsAs, toDouble] at h ⊢
  split at h
  · next none =>
    rw [if_pos none]
    simpa using h
  split at h
  · cases h
  split at h
  · next digits near small =>
    rw [if_neg digits, if_neg near, if_pos small]
    simpa using h
  split at h
  · next digits near large whole =>
    rw [if_neg digits, if_neg near, if_neg large, if_pos whole]
    exact ofUnits_of_finite h negative
  · next digits near large part =>
    rw [if_neg digits, if_neg near, if_neg large, if_neg part]
    exact ofUnits_of_finite h negative

/-- Within reach, a decimal fraction is the quotient by a power of ten. -/
theorem toDouble_fraction {negative : Bool} {n k : Nat} (hn : n ≠ 0) (hk : 0 < k)
    (short : length n ≤ reach + k) (long : k ≤ length n + reach)
    : (⟨n, -(k : Int)⟩ : Decimal).toDouble negative = ofRatio negative n (Nat.pow 10 k) := by
  have exponent : (- -(k : Int)).toNat = k := by omega
  simp only [toDouble, hn, if_false]
  rw [if_neg (by omega), if_neg (by omega), if_neg (by omega), exponent]

/-- The exact value of a number reads back. -/
theorem readsAs_exact {units : Nat} (h : Representable units) (small : units < overflow)
    : ReadsAs units (exact units) := by
  by_cases zero : units = 0
  · subst zero
    simp [ReadsAs, toDouble, exact]
  have fives : 10 ^ 750 ≤ Nat.pow 5 1074 := by decide +kernel
  have limit : overflow * Nat.pow 5 1074 < 10 ^ 1384 := by decide +kernel
  have tens : Nat.pow 10 1074 = Nat.pow 5 1074 * one := by decide +kernel
  have tens_pos : 0 < Nat.pow 10 1074 := Nat.pow_pos (by decide)
  have some_digits : units * Nat.pow 5 1074 ≠ 0 :=
    Nat.mul_ne_zero zero (Nat.pow_pos (by decide)).ne'
  have short : length (units * Nat.pow 5 1074) ≤ 1384 :=
    (Nat.length_toDigits_le_iff (by decide) (by decide)).2
      (Nat.lt_of_le_of_lt (Nat.mul_le_mul_right _ small.le) limit)
  have long : 750 < length (units * Nat.pow 5 1074) := by
    by_contra h
    have below := (Nat.length_toDigits_le_iff (by decide) (by decide)).1 (Nat.le_of_not_lt h)
    have : Nat.pow 5 1074 ≤ units * Nat.pow 5 1074 :=
      Nat.le_mul_of_pos_left _ (Nat.pos_of_ne_zero zero)
    exact absurd (Nat.lt_of_le_of_lt (fives.trans this) below) (Nat.lt_irrefl _)
  have value : ofRatio false (units * Nat.pow 5 1074) (Nat.pow 10 1074) = .finite false units := by
    rw [ofRatio, Nat.mul_assoc, ← tens, ofUnits, nearest_mul tens_pos h, if_pos small]
  have within : length (units * Nat.pow 5 1074) ≤ reach + 1074 :=
    short.trans (by decide)
  have within' : 1074 ≤ length (units * Nat.pow 5 1074) + reach :=
    Nat.le_trans (by decide) (Nat.add_le_add_right long.le reach)
  exact (toDouble_fraction (k := 1074) some_digits (by decide) within within').trans value

theorem readsAs_search {units : Nat} (h : Representable units) (small : units < overflow)
    (attempts count : Nat)
    : ReadsAs units (search units attempts count) := by
  induction attempts generalizing count with
  | zero => exact readsAs_exact h small
  | succ attempts ih =>
      simp only [search]
      cases hit : onGrid? units count with
      | none => exact ih (count + 1)
      | some d => exact readsAs_of_onGrid? hit

theorem readsAs_shortest {units : Nat} (h : Representable units) (small : units < overflow)
    : ReadsAs units (shortest units) :=
  readsAs_search h small 17 1

end Decimal

end NameserverAudit.Double
