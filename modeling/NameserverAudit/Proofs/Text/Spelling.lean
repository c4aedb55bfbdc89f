import Mathlib.Data.List.TakeWhile
import NameserverAudit.Proofs.Text.Canonical

/-! Spellings of a name. A name may be written with blanks around it, with any number of dots at
its end, and in any case. Neither the case of ASCII letters nor the dots change which sigma is a
final one. Main statement: all spellings of a name have one canonical text.
-/

namespace NameserverAudit

namespace Text

-----------------------------------------------------------------------------------------
-- Case
-----------------------------------------------------------------------------------------

/-- The case of ASCII letters makes no difference to a function that does not tell the capital
ones from the small ones: every other character stays as it is.
-/
theorem apply_toLower {α : Type} {f : Char → α}
    (capitals : ∀ n < 26, f (Char.ofNat (65 + n)).toLower = f (Char.ofNat (65 + n))) (c : Char)
    : f c.toLower = f c := by
  by_cases capital : c.val ≥ 'A'.val ∧ c.val ≤ 'Z'.val
  · have least : 65 ≤ c.toNat := UInt32.le_iff_toNat_le.1 capital.1
    have greatest : c.toNat ≤ 90 := UInt32.le_iff_toNat_le.1 capital.2
    have letter := capitals (c.toNat - 65) (by omega)
    rw [Nat.add_sub_cancel' least, Char.ofNat_toNat] at letter
    exact letter
  · have same : c.toLower = c := dif_neg capital
    rw [same]

/-- A sign that is no letter comes from itself alone. -/
theorem toLower_eq_iff (sign : Char) (h : ∀ n < 26, (Char.ofNat (65 + n)).toLower ≠ sign)
    (h' : ∀ n < 26, Char.ofNat (65 + n) ≠ sign) (c : Char)
    : c.toLower = sign ↔ c = sign := by
  have same : (c.toLower = sign) = (c = sign) := by
    refine apply_toLower (f := fun c => c = sign) (fun n hn => ?_) c
    simp only [h n hn, h' n hn]
  rw [same]

theorem startsCased_map_toLower (cs : List Char)
    : startsCased (cs.map Char.toLower) = startsCased cs := by
  have ignorable : isCaseIgnorable ∘ Char.toLower = isCaseIgnorable :=
    funext (apply_toLower (by decide +kernel))
  rw [startsCased, startsCased, List.dropWhile_map, ignorable]
  cases cs.dropWhile isCaseIgnorable with
  | nil => rfl
  | cons c rest => exact apply_toLower (f := isCased) (by decide +kernel) c

/-- The case of ASCII letters makes no difference to the lower-case form, by induction on the
text: a sigma has letters around it in the same places.
-/
theorem lowerAfter_map_toLower (before cs : List Char)
    : lowerAfter (before.map Char.toLower) (cs.map Char.toLower) = lowerAfter before cs := by
  induction cs generalizing before with
  | nil => rfl
  | cons c rest ih =>
      have sigmas : (c.toLower.toNat = 0x3a3) = (c.toNat = 0x3a3) :=
        apply_toLower (f := fun c => c.toNat = 0x3a3) (by decide) c
      have letters : lowerChar c.toLower = lowerChar c :=
        apply_toLower (f := lowerChar) (by decide) c
      have here : sigma (before.map Char.toLower) (rest.map Char.toLower) = sigma before rest := by
        simp only [sigma, startsCased_map_toLower]
      have later := ih (c :: before)
      simp only [List.map_cons] at later
      simp only [List.map_cons, lowerAfter, sigmas, letters, here, later]

theorem lower_map_toLower (cs : List Char) : lower (cs.map Char.toLower) = lower cs :=
  lowerAfter_map_toLower [] cs

/-- Two texts that differ in case at most: in that of ASCII letters, or in that of any letters
if their lower-case forms are the same.
-/
inductive CaseVariant (xs ys : List Char) : Prop
  | ascii (h : xs.map Char.toLower = ys.map Char.toLower)
  | letters (h : lower xs = lower ys)

theorem CaseVariant.lower_eq {xs ys : List Char} (h : CaseVariant xs ys)
    : lower xs = lower ys := by
  cases h with
  | ascii h => rw [← lower_map_toLower xs, h, lower_map_toLower]
  | letters h => exact h

-----------------------------------------------------------------------------------------
-- Dots at the end
-----------------------------------------------------------------------------------------

variable {dots : List Char}

theorem startsCased_append_dots (cs : List Char) (h : ∀ c ∈ dots, c = '.')
    : startsCased (cs ++ dots) = startsCased cs := by
  have ignored : dots.dropWhile isCaseIgnorable = [] := by
    rw [List.dropWhile_eq_nil_iff]
    intro c hc
    rw [h c hc]
    decide
  rw [startsCased, startsCased, List.dropWhile_append]
  cases cs.dropWhile isCaseIgnorable with
  | nil => simp [ignored]
  | cons c rest => simp

/-- Dots at the end stay as they are, and what comes before them does not depend on them, by
induction on it: a dot does not tell if a sigma is a final one.
-/
theorem lowerAfter_append_dots (before cs : List Char) (h : ∀ c ∈ dots, c = '.')
    : lowerAfter before (cs ++ dots) = lowerAfter before cs ++ dots := by
  induction cs generalizing before with
  | nil =>
      apply lowerAfter_of_isPlainLower
      intro c hc
      rw [h c hc]
      decide
  | cons c rest ih =>
      have here : sigma before (rest ++ dots) = sigma before rest := by
        simp only [sigma, startsCased_append_dots rest h]
      simp only [List.cons_append, lowerAfter, here, ih, List.append_assoc]

theorem dropFinalDots_append_dots (cs : List Char) (h : ∀ c ∈ dots, c = '.')
    : dropFinalDots (cs ++ dots) = dropFinalDots cs := by
  have dropped : ∀ c ∈ dots.reverse, decide (c = '.') = true := by
    intro c hc
    exact decide_eq_true (h c (List.mem_reverse.1 hc))
  rw [dropFinalDots, dropRightWhile, List.reverse_append,
    List.dropWhile_append_of_pos dropped]
  rfl

theorem dropFinalDots_map_toLower (cs : List Char)
    : dropFinalDots (cs.map Char.toLower) = (dropFinalDots cs).map Char.toLower := by
  have dot : (fun c : Char => decide (c = '.')) ∘ Char.toLower = fun c => decide (c = '.') :=
    funext fun c => decide_eq_decide.2 (toLower_eq_iff '.' (by decide) (by decide) c)
  rw [dropFinalDots, dropFinalDots, dropRightWhile, dropRightWhile, ← List.map_reverse,
    List.dropWhile_map, dot, List.map_reverse]

-----------------------------------------------------------------------------------------
-- Blanks around
-----------------------------------------------------------------------------------------

/-- Trimming takes the blanks off that stand around a text without blanks at its ends. -/
theorem trim_append {before cs after : List Char}
    (first : ∀ c, cs.head? = some c → isBlank c = false)
    (last : ∀ c, cs.getLast? = some c → isBlank c = false)
    (front : ∀ c ∈ before, isBlank c = true) (back : ∀ c ∈ after, isBlank c = true)
    : trim (before ++ cs ++ after) = cs := by
  have back' : ∀ c ∈ after.reverse, isBlank c = true := fun c hc => back c (by simpa using hc)
  have right : dropRightWhile isBlank (cs ++ after) = cs := by
    rw [dropRightWhile, List.reverse_append, List.dropWhile_append_of_pos back']
    exact dropRightWhile_of_getLast? last
  rw [trim, List.append_assoc, List.dropWhile_append_of_pos front]
  cases cs with
  | nil =>
      rw [List.nil_append, List.dropWhile_eq_nil_iff.2 back]
      rfl
  | cons c rest =>
      rw [List.cons_append, List.dropWhile_cons_of_neg (by simpa using first c rfl)]
      exact right

/-- What is dropped from the end of a text is of the class. -/
theorem exists_append_dropRightWhile (p : Char → Bool) (cs : List Char)
    : ∃ after, cs = dropRightWhile p cs ++ after ∧ ∀ c ∈ after, p c = true := by
  refine ⟨(cs.reverse.takeWhile p).reverse, ?_, ?_⟩
  · rw [dropRightWhile, ← List.reverse_append, List.takeWhile_append_dropWhile,
      List.reverse_reverse]
  · exact fun c hc => List.mem_takeWhile_imp (List.mem_reverse.1 hc)

/-- A text is its trimmed form with blanks around it. -/
theorem exists_append_trim (cs : List Char)
    : ∃ before after,
        cs = before ++ trim cs ++ after
        ∧ (∀ c ∈ before, isBlank c = true)
        ∧ ∀ c ∈ after, isBlank c = true := by
  obtain ⟨after, right, back⟩ := exists_append_dropRightWhile isBlank (cs.dropWhile isBlank)
  refine ⟨cs.takeWhile isBlank, after, ?_, fun c hc => List.mem_takeWhile_imp hc, back⟩
  rw [trim, List.append_assoc, ← right, List.takeWhile_append_dropWhile]

-----------------------------------------------------------------------------------------
-- Spellings
-----------------------------------------------------------------------------------------

/-- A text spells a name: blanks around it aside, it is the name in some case, with any number of
dots at its end.
-/
inductive Spelling (name : List Char) : List Char → Prop
  | intro {before body dots after : List Char} (variant : CaseVariant body name)
      (final : ∀ c ∈ dots, c = '.')
      (first : ∀ c, (body ++ dots).head? = some c → isBlank c = false)
      (last : ∀ c, (body ++ dots).getLast? = some c → isBlank c = false)
      (front : ∀ c ∈ before, isBlank c = true) (back : ∀ c ∈ after, isBlank c = true)
      : Spelling name (before ++ (body ++ dots) ++ after)

/-- Every text spells some name, the one that is left when the blanks around it are gone. -/
theorem spelling_trim (cs : List Char) : Spelling (trim cs) cs := by
  obtain ⟨before, after, whole, front, back⟩ := exists_append_trim cs
  have spelled : Spelling (trim cs) (before ++ (trim cs ++ []) ++ after) := by
    refine .intro (.letters rfl) (by simp) ?_ ?_ front back
    · rw [List.append_nil]
      exact fun c hc => isBlank_head?_trim hc
    · rw [List.append_nil]
      exact fun c hc => getLast?_dropRightWhile hc
  rw [List.append_nil, ← whole] at spelled
  exact spelled

/-- All spellings of a name have one canonical text. -/
theorem Spelling.canonical_eq {name raw : List Char} (h : Spelling name raw)
    : canonical raw = dropFinalDots (lower name) ++ ['.'] := by
  obtain ⟨variant, final, first, last, front, back⟩ := h
  rw [canonical, trim_append first last front back, lower, lowerAfter_append_dots _ _ final,
    dropFinalDots_append_dots _ final]
  exact congrArg (fun cs => dropFinalDots cs ++ ['.']) variant.lower_eq

end Text

/-- Two texts are spellings of one name. -/
def SameName (a b : String) : Prop :=
  ∃ name, Text.Spelling name a.toList ∧ Text.Spelling name b.toList

theorem SameName.refl (a : String) : SameName a a :=
  ⟨_, Text.spelling_trim _, Text.spelling_trim _⟩

theorem SameName.canonicalName_eq {a b : String} (h : SameName a b)
    : canonicalName a = canonicalName b := by
  obtain ⟨name, ha, hb⟩ := h
  rw [canonicalName, canonicalName, ha.canonical_eq, hb.canonical_eq]

end NameserverAudit
