import Mathlib.Data.List.Induction
import Mathlib.Data.Nat.Digits.Defs
import NameserverAudit.Proofs.Address.Spelling
import NameserverAudit.Proofs.Lists

/-! Numbers in addresses: which texts are read as bytes and as groups. Main statements: an address
of version 4 has one text, and a group may have zeros in front of it and digits in any case.
-/

namespace NameserverAudit

open Text

-----------------------------------------------------------------------------------------
-- Numbers with leading zeros
-----------------------------------------------------------------------------------------

/-- Digits in a row are the number that they make, with some zeros in front of it, by induction
on them from the end: behind nothing but zeros the last digit is the number.
-/
theorem exists_map_digitChar {base : Nat} (one_lt : 1 < base) {ds : List Nat} (hne : ds ≠ [])
    (small : ∀ d ∈ ds, d < base)
    : ∃ k, ds.map Nat.digitChar
        = List.replicate k '0' ++ Nat.toDigits base (ds.foldl (fun n d => base * n + d) 0) := by
  induction ds using List.reverseRecOn with
  | nil => exact absurd rfl hne
  | append_singleton init d ih =>
      have hd : d < base := small d (by simp)
      have alone : Nat.toDigits base d = [Nat.digitChar d] := by
        rw [Nat.toDigits_eq_if one_lt, if_pos hd]
      simp only [List.map_append, List.foldl_append, List.map_cons, List.map_nil,
        List.foldl_cons, List.foldl_nil]
      by_cases first : init = []
      · exact ⟨0, by simp [first, alone]⟩
      · obtain ⟨k, hinit⟩ := ih first fun e he => small e (List.mem_append_left _ he)
        generalize init.foldl (fun n d => base * n + d) 0 = n at hinit
        rw [hinit]
        rcases Nat.eq_zero_or_pos n with rfl | positive
        · have zero : Nat.toDigits base 0 = ['0'] := by
            rw [Nat.toDigits_eq_if one_lt, if_pos (by omega)]
            rfl
          exact ⟨k + 1, by simp [zero, alone, List.replicate_succ']⟩
        · have large : ¬base * n + d < base := by
            have := Nat.le_mul_of_pos_right base positive
            omega
          have quotient : (base * n + d) / base = n := by
            rw [Nat.mul_add_div (by omega), Nat.div_eq_of_lt hd, Nat.add_zero]
          have remainder : (base * n + d) % base = d := by
            rw [Nat.mul_add_mod, Nat.mod_eq_of_lt hd]
          refine ⟨k, ?_⟩
          rw [Nat.toDigits_eq_if one_lt (n := base * n + d), if_neg large, quotient, remainder,
            List.append_assoc]

-----------------------------------------------------------------------------------------
-- Version 4
-----------------------------------------------------------------------------------------

namespace Ipv4

/-- The value of a decimal digit is below ten, and the digit is that of its value. -/
theorem digit_value {c : Char} (h : '0' ≤ c ∧ c ≤ '9')
    : c.toNat - '0'.toNat < 10 ∧ Nat.digitChar (c.toNat - '0'.toNat) = c := by
  have least : 48 ≤ c.toNat := h.1
  have greatest : c.toNat ≤ 57 := h.2
  exact forall_ascii (P := fun c => 48 ≤ c.toNat → c.toNat ≤ 57 →
    c.toNat - '0'.toNat < 10 ∧ Nat.digitChar (c.toNat - '0'.toNat) = c) (by decide) (by omega)
    least greatest

/-- Decimal digits are the number that they make, with some zeros in front of it. -/
theorem exists_zeros_of_digits {cs : List Char} (nonempty : cs ≠ [])
    (digits : ∀ c ∈ cs, '0' ≤ c ∧ c ≤ '9')
    : ∃ k, cs = List.replicate k '0'
        ++ Nat.toDigits 10 (cs.foldl (fun n c => 10 * n + (c.toNat - '0'.toNat)) 0) := by
  have written : (cs.map fun c => c.toNat - '0'.toNat).map Nat.digitChar = cs := by
    rw [List.map_map]
    exact (List.map_congr_left fun c hc => (digit_value (digits c hc)).2).trans (List.map_id cs)
  have small : ∀ d ∈ cs.map fun c => c.toNat - '0'.toNat, d < 10 := by
    simpa using fun c hc => (digit_value (digits c hc)).1
  obtain ⟨k, hk⟩ := exists_map_digitChar (by decide) (by simpa using nonempty) small
  rw [written, List.foldl_map] at hk
  exact ⟨k, hk⟩

/-- A byte is read from its decimal digits alone: more digits for it would start with a zero. -/
theorem byte?_eq_some_iff {cs : List Char} {b : UInt8}
    : byte? cs = some b ↔ cs = Nat.toDigits 10 b.toNat := by
  constructor
  · intro h
    unfold byte? at h
    split at h
    · cases h
    · next plain =>
      split at h
      · cases h
      · next unpadded =>
        dsimp only at h
        split at h
        · next small =>
          simp only [Bool.or_eq_true, List.isEmpty_iff, decide_eq_true_eq, Bool.not_eq_true',
            not_or, Bool.not_eq_false] at plain
          obtain ⟨⟨nonempty, -⟩, digits⟩ := plain
          obtain ⟨k, hk⟩ := exists_zeros_of_digits nonempty
            (by simpa using List.all_eq_true.1 digits)
          generalize cs.foldl (fun n c => 10 * n + (c.toNat - '0'.toNat)) 0 = n at hk h small
          have value : b.toNat = n := by
            rw [← Option.some.inj h, UInt8.toNat_ofNat_of_lt' small]
          cases k with
          | zero => rw [value, hk]; rfl
          | succ k =>
              -- The digits are behind a zero, and there is at least one of them.
              simp [hk, List.replicate_succ] at unpadded
        · cases h
  · rintro rfl
    exact byte?_toDigits b

/-- An address of version 4 is read from its canonical form alone. -/
theorem ofChars?_eq_some_iff {cs : List Char} {a : Ipv4}
    : ofChars? cs = some a ↔ cs = a.chars := by
  constructor
  · intro h
    unfold ofChars? at h
    split at h
    · cases h
    · next bytes hbytes =>
      split at h
      · next four =>
        obtain rfl := Option.some.inj h
        have pieces : splitOn '.' cs = bytes.map fun b => Nat.toDigits 10 b.toNat := by
          rw [← List.forall₂_eq_eq_eq, List.forall₂_map_right_iff]
          exact (mapM_eq_some_iff.1 hbytes).imp fun _ _ => byte?_eq_some_iff.1
        apply splitOn_injective '.'
        rw [pieces, splitOn_chars]
      · cases h
  · rintro rfl
    exact ofChars?_chars a

end Ipv4

-----------------------------------------------------------------------------------------
-- Groups of version 6
-----------------------------------------------------------------------------------------

namespace Ipv6

/-- The characters are the hexadecimal digits of the group, in any case and with zeros in front of
them, but no more than four.
-/
def WritesGroup (cs : List Char) (g : UInt16) : Prop :=
  cs.length ≤ 4 ∧ ∃ k, cs.map Char.toLower = List.replicate k '0' ++ groupChars g

/-- The value of a digit is below sixteen, and the digit is that of its value but for its case. -/
theorem hexValue?_digit {c : Char} {d : Nat} (h : hexValue? c = some d)
    : d < 16 ∧ c.toLower = Nat.digitChar d := by
  have ascii : c.toNat < 128 := by
    by_contra large
    have above (last : Char) (hlast : last.toNat < 128) : ¬c ≤ last := by
      intro le
      have : c.toNat ≤ last.toNat := le
      omega
    simp [hexValue?, above '9' (by decide), above 'f' (by decide), above 'F' (by decide)] at h
  exact forall_ascii
    (P := fun c => ∀ d ∈ hexValue? c, d < 16 ∧ c.toLower = Nat.digitChar d) (by decide) ascii d h

theorem mapM_hexValue?_zeros (k : Nat)
    : (List.replicate k '0').mapM hexValue? = some (List.replicate k 0) := by
  have zero : hexValue? '0' = some 0 := rfl
  induction k with
  | zero => rfl
  | succ k ih => simp [List.replicate_succ, zero, ih]

theorem foldl_zeros (k : Nat) : (List.replicate k 0).foldl (fun n d => 16 * n + d) 0 = 0 := by
  induction k with
  | zero => rfl
  | succ k ih => simpa [List.replicate_succ] using ih

/-- Hexadecimal digits are the number that they make, but for their case, with some zeros in front
of it.
-/
theorem exists_zeros_of_hexValues {cs : List Char} {ds : List Nat} (nonempty : cs ≠ [])
    (values : cs.mapM hexValue? = some ds)
    : ∃ k, cs.map Char.toLower = List.replicate k '0'
        ++ Nat.toDigits 16 (ds.foldl (fun n d => 16 * n + d) 0) := by
  have digits : List.Forall₂ (fun d c => d < 16 ∧ c.toLower = Nat.digitChar d) ds cs :=
    (mapM_eq_some_iff.1 values).flip.imp fun _ _ => hexValue?_digit
  obtain ⟨small, chars⟩ := (List.forall₂_and_left _ _).1 digits
  have lower : cs.map Char.toLower = ds.map Nat.digitChar := by
    rw [← List.forall₂_eq_eq_eq, List.forall₂_map_left_iff, List.forall₂_map_right_iff]
    exact chars.flip
  have hne : ds ≠ [] := by
    rintro rfl
    exact nonempty (List.length_eq_zero_iff.1 digits.length_eq.symm)
  rw [lower]
  exact exists_map_digitChar (by decide) hne small

theorem WritesGroup.ne_nil {cs : List Char} {g : UInt16} (h : WritesGroup cs g) : cs ≠ [] := by
  rintro rfl
  obtain ⟨-, k, lower⟩ := h
  exact Nat.toDigits_ne_nil (List.append_eq_nil_iff.1 lower.symm).2

/-- A group is read from the texts that write it. -/
theorem group?_eq_some_iff {cs : List Char} {g : UInt16}
    : group? cs = some g ↔ WritesGroup cs g := by
  constructor
  · intro h
    unfold group? at h
    split at h
    · cases h
    · next short =>
      obtain ⟨ds, hds, rfl⟩ := Option.map_eq_some_iff.1 h
      simp only [Bool.or_eq_true, List.isEmpty_iff, decide_eq_true_eq, not_or, not_lt] at short
      obtain ⟨k, hk⟩ := exists_zeros_of_hexValues short.1 hds
      generalize ds.foldl (fun n d => 16 * n + d) 0 = n at hk ⊢
      have bound : n < 16 ^ 4 := by
        rw [← Nat.length_toDigits_le_iff (by decide) (by decide)]
        have := congrArg List.length hk
        simp only [List.length_map, List.length_append, List.length_replicate] at this
        omega
      refine ⟨short.2, k, ?_⟩
      rw [hk, groupChars, UInt16.toNat_ofNat_of_lt' bound]
  · intro h
    have hne := h.ne_nil
    obtain ⟨short, k, lower⟩ := h
    obtain ⟨ds, hds, value⟩ := mapM_hexValue?_toDigits g.toNat
    have digits : cs.mapM hexValue? = some (List.replicate k 0 ++ ds) := by
      have hds : (groupChars g).mapM hexValue? = some ds := hds
      rw [← hexValue?_comp_toLower, ← List.mapM_map, lower, List.mapM_append,
        mapM_hexValue?_zeros, hds]
      rfl
    have : ¬4 < cs.length := by omega
    simp [group?, hne, this, digits, foldl_zeros, value]

/-- The characters of a group are digits. -/
theorem WritesGroup.mem {cs : List Char} {g : UInt16} {c : Char} (h : WritesGroup cs g)
    (hc : c ∈ cs)
    : ∃ d < 16, c.toLower = Nat.digitChar d := by
  obtain ⟨-, k, lower⟩ := h
  have hmem : c.toLower ∈ List.replicate k '0' ++ groupChars g :=
    lower ▸ List.mem_map_of_mem hc
  rcases List.mem_append.1 hmem with zero | digit
  · exact ⟨0, by decide, List.eq_of_mem_replicate zero⟩
  · exact exists_digit_of_mem_toDigits (by decide) digit

/-- No character of a group is a sign of an address. -/
theorem WritesGroup.no_sign {cs : List Char} {g : UInt16} (h : WritesGroup cs g)
    : ∀ c ∈ cs, c ≠ ':' ∧ c ≠ '.' ∧ c ≠ '/' ∧ c ≠ '%' := by
  intro c hc
  obtain ⟨d, hd, lower⟩ := h.mem hc
  have digit := digitChar_not_sign d hd
  rw [← lower] at digit
  refine ⟨?_, ?_, ?_, ?_⟩
  · rintro rfl
    exact digit.1 rfl
  · rintro rfl
    exact digit.2.1 rfl
  · rintro rfl
    exact digit.2.2.1 rfl
  · rintro rfl
    exact digit.2.2.2 rfl

theorem WritesGroup.piece?_eq {cs : List Char} {g : UInt16} (h : WritesGroup cs g)
    : piece? cs = some (some g) := by
  simp [piece?, h.ne_nil, group?_eq_some_iff.2 h]

end Ipv6

end NameserverAudit
