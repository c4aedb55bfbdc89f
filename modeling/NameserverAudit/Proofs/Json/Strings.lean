import NameserverAudit.Json.Printer
import NameserverAudit.Json.Reader

/-!
Strings in JSON text. An escape is read as the character that was escaped: an escape by code
units only once the text goes on, since a second unit could follow; the closing quote sees to
that. Main statement: the text of a string reads as the string.
-/

namespace NameserverAudit.Json

-----------------------------------------------------------------------------------------
-- Code units
-----------------------------------------------------------------------------------------

theorem hexValue?_digitChar {d : Nat} (h : d < 16) : hexValue? d.digitChar = some d := by
  revert d
  decide

/-- Four hexadecimal digits of a number below `16⁴`, the greatest place first. -/
theorem hexPadded_four {n : Nat} (h : n < 0x10000)
    : Text.hexPadded 4 n
      = [(n / 4096).digitChar, (n / 256 % 16).digitChar, (n / 16 % 16).digitChar,
          (n % 16).digitChar] := by
  have last {m : Nat} (h : 16 ≤ m)
      : Nat.toDigits 16 m = Nat.toDigits 16 (m / 16) ++ [(m % 16).digitChar] :=
    Nat.toDigits_of_base_le (by decide) h
  have single {m : Nat} (h : m < 16) : Nat.toDigits 16 m = [m.digitChar] :=
    Nat.toDigits_of_lt_base h
  have div256 : n / 16 / 16 = n / 256 := by omega
  have div4096 : n / 256 / 16 = n / 4096 := by omega
  have zero : (0 : Nat).digitChar = '0' := rfl
  by_cases one : n < 16
  · have e₁ : n / 4096 = 0 := by omega
    have e₂ : n / 256 % 16 = 0 := by omega
    have e₃ : n / 16 % 16 = 0 := by omega
    have e₄ : n % 16 = n := by omega
    rw [e₁, e₂, e₃, e₄, zero, Text.hexPadded, single one]
    rfl
  by_cases two : n < 256
  · have e₁ : n / 4096 = 0 := by omega
    have e₂ : n / 256 % 16 = 0 := by omega
    have e₃ : n / 16 % 16 = n / 16 := by omega
    rw [e₁, e₂, e₃, zero, Text.hexPadded, last (by omega), single (by omega)]
    rfl
  by_cases three : n < 4096
  · have e₁ : n / 4096 = 0 := by omega
    have e₂ : n / 256 % 16 = n / 256 := by omega
    rw [e₁, e₂, zero, Text.hexPadded, last (by omega), last (by omega), div256,
      single (by omega)]
    rfl
  · rw [Text.hexPadded, last (by omega), last (by omega), div256, last (by omega), div4096,
      single (by omega)]
    rfl

/-- The escape of a code unit reads as the unit. -/
theorem hexQuad?_hexPadded {n : Nat} (h : n < 0x10000)
    : ∃ a b c d, Text.hexPadded 4 n = [a, b, c, d] ∧ hexQuad? a b c d = some n := by
  refine ⟨_, _, _, _, hexPadded_four h, ?_⟩
  simp only [hexQuad?, hexValue?_digitChar (show n / 4096 < 16 by omega),
    hexValue?_digitChar (show n / 256 % 16 < 16 by omega),
    hexValue?_digitChar (show n / 16 % 16 < 16 by omega),
    hexValue?_digitChar (show n % 16 < 16 by omega)]
  simp only [Option.bind_eq_bind, Option.bind_some, Option.pure_def, Option.some.injEq]
  omega

theorem toNat_lt (c : Char) : c.toNat < 0x110000 := by
  have valid := c.valid
  simp only [UInt32.isValidChar, Nat.isValidChar] at valid
  have : c.toNat = c.val.toNat := rfl
  omega

/-- The codes of characters leave out the halves of pairs. -/
theorem toNat_not_unit (c : Char) : isHighUnit c.toNat = false ∧ isLowUnit c.toNat = false := by
  have valid := c.valid
  simp only [UInt32.isValidChar, Nat.isValidChar] at valid
  simp only [isHighUnit, isLowUnit, Bool.and_eq_false_iff, decide_eq_false_iff_not]
  have : c.toNat = c.val.toNat := rfl
  omega

-----------------------------------------------------------------------------------------
-- One character
-----------------------------------------------------------------------------------------

section

variable (start read : List Char) {tail : List Char}

theorem stringBody_unit {a b c d : Char} {n : Nat} (value : hexQuad? a b c d = some n)
    (single : isHighUnit n = false) (goes_on : tail ≠ [])
    : stringBody start read ('\\' :: 'u' :: a :: b :: c :: d :: tail)
      = stringBody start (ofUnit n :: read) tail := by
  obtain ⟨next, rest, rfl⟩ := List.exists_cons_of_ne_nil goes_on
  by_cases second : ∃ e f g h after_ more,
      next :: rest = '\\' :: 'u' :: e :: f :: g :: h :: after_ :: more
  · obtain ⟨e, f, g, h, after_, more, hshape⟩ := second
    rw [hshape, stringBody, value]
    simp [single]
  · rw [stringBody, value]
    exact fun e f g h after_ more hnext hrest => second ⟨e, f, g, h, after_, more, by simp_all⟩

theorem stringBody_pair {a b c d e f g h : Char} {high low : Nat}
    (hhigh : hexQuad? a b c d = some high) (hlow : hexQuad? e f g h = some low)
    (isHigh : isHighUnit high = true) (isLow : isLowUnit low = true) (goes_on : tail ≠ [])
    : stringBody start read
        ('\\' :: 'u' :: a :: b :: c :: d :: '\\' :: 'u' :: e :: f :: g :: h :: tail)
      = stringBody start (ofPair high low :: read) tail := by
  obtain ⟨next, rest, rfl⟩ := List.exists_cons_of_ne_nil goes_on
  rw [stringBody, hhigh]
  simp [isHigh, hlow, isLow]

theorem ofUnit_toNat (c : Char) : ofUnit c.toNat = c := by
  obtain ⟨high, low⟩ := toNat_not_unit c
  rw [ofUnit, high, low, Bool.or_false, if_neg Bool.false_ne_true, Char.ofNat_toNat]

/-- The escape of a character by one or two code units. -/
theorem stringBody_units (c : Char) (goes_on : tail ≠ [])
    : stringBody start read
        (((units c).flatMap fun u => '\\' :: 'u' :: Text.hexPadded 4 u) ++ tail)
      = stringBody start (c :: read) tail := by
  simp only [units]
  split
  · next small =>
    obtain ⟨a, b, d, e, hex, value⟩ := hexQuad?_hexPadded small
    rw [List.flatMap_singleton, hex]
    exact (stringBody_unit start read value (toNat_not_unit c).1 goes_on).trans
      (by rw [ofUnit_toNat])
  · next large =>
    have limit := toNat_lt c
    generalize hhigh : 0xd800 + (c.toNat - 0x10000) / 0x400 = high
    generalize hlow : 0xdc00 + (c.toNat - 0x10000) % 0x400 = low
    obtain ⟨a, b, d, e, hex, value⟩ := hexQuad?_hexPadded (show high < 0x10000 by omega)
    obtain ⟨a', b', d', e', hex', value'⟩ := hexQuad?_hexPadded (show low < 0x10000 by omega)
    have isHigh : isHighUnit high = true := by
      simp only [isHighUnit, Bool.and_eq_true, decide_eq_true_eq]
      omega
    have isLow : isLowUnit low = true := by
      simp only [isLowUnit, Bool.and_eq_true, decide_eq_true_eq]
      omega
    have paired : ofPair high low = c := by
      have : 0x10000 + (high - 0xd800) * 0x400 + (low - 0xdc00) = c.toNat := by omega
      rw [ofPair, this, Char.ofNat_toNat]
    rw [List.flatMap_cons, List.flatMap_singleton, hex, hex']
    exact (stringBody_pair start read value value' isHigh isLow goes_on).trans (by rw [paired])

theorem stringBody_plain {c : Char} (quote : c ≠ '"') (backslash : c ≠ '\\')
    (printable : 0x20 ≤ c.toNat)
    : stringBody start read (c :: tail) = stringBody start (c :: read) tail := by
  have no_control : ¬c.toNat < 0x20 := by omega
  rw [stringBody, if_neg no_control] <;> simp [quote, backslash]

theorem stringBody_short {e c : Char} (other : e ≠ 'u') (value : escape? e = some c)
    : stringBody start read ('\\' :: e :: tail) = stringBody start (c :: read) tail := by
  rw [stringBody, value] <;> simp [other]

/-- The escape of a character reads as the character. -/
theorem stringBody_escaped (c : Char) (goes_on : tail ≠ [])
    : stringBody start read (escaped c ++ tail) = stringBody start (c :: read) tail := by
  unfold escaped
  by_cases quote : c = '"'
  · rw [if_pos quote, quote]
    exact stringBody_short start read (by decide) rfl
  by_cases backslash : c = '\\'
  · rw [if_neg quote, if_pos backslash, backslash]
    exact stringBody_short start read (by decide) rfl
  rw [if_neg quote, if_neg backslash]
  split
  · next e => rw [e]; exact stringBody_short start read (by decide) rfl
  split
  · next e => rw [e]; exact stringBody_short start read (by decide) rfl
  split
  · next e => rw [e]; exact stringBody_short start read (by decide) rfl
  split
  · next e => rw [e]; exact stringBody_short start read (by decide) rfl
  split
  · next e => rw [e]; exact stringBody_short start read (by decide) rfl
  split
  · next printable =>
    simp only [Bool.and_eq_true, decide_eq_true_eq] at printable
    exact stringBody_plain start read quote backslash printable.1
  · exact stringBody_units start read c goes_on

end

-----------------------------------------------------------------------------------------
-- A string
-----------------------------------------------------------------------------------------

/-- Characters read one by one up to the closing quote, by induction on them. -/
theorem stringBody_characters (start read cs rest : List Char)
    : stringBody start read (cs.flatMap escaped ++ '"' :: rest)
      = .ok (String.ofList (read.reverse ++ cs), rest) := by
  induction cs generalizing read with
  | nil => simp [stringBody]
  | cons c cs ih =>
      rw [List.flatMap_cons, List.append_assoc, stringBody_escaped start read c (by simp), ih,
        List.reverse_cons, List.append_assoc, List.singleton_append]

/-- After the opening quote, the text of a string reads as the string. -/
theorem stringBody_stringText (start : List Char) (s : String) (rest : List Char)
    : ∃ body, stringText s ++ rest = '"' :: body ∧ stringBody start [] body = .ok (s, rest) := by
  refine ⟨s.toList.flatMap escaped ++ '"' :: rest, by simp [stringText], ?_⟩
  rw [stringBody_characters, List.reverse_nil, List.nil_append, String.ofList_toList]

end NameserverAudit.Json
