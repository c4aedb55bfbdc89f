import NameserverAudit.Proofs.Address.Canonical
import NameserverAudit.Proofs.Lists
import NameserverAudit.Proofs.Text.Spelling

/-! Literals and their addresses. Main statements: literals have one canonical text exactly if
they are of one address, scopes included; and the lower-case form of a text that is no literal is
not the canonical text of any.
-/

namespace NameserverAudit

open Text

-----------------------------------------------------------------------------------------
-- Addresses with a scope
-----------------------------------------------------------------------------------------

namespace Address

/-- The scope of an address, if it has one, is such as can be written. -/
def WellScoped : Address → Prop
  | .v6 _ (some scope) => scope.toList ≠ [] ∧ ∀ c ∈ scope.toList, c ≠ '/' ∧ c ≠ '%'
  | _ => True

/-- Text of version 6, a percent sign and a scope are an address with this scope. -/
theorem ofChars?_of_scoped {cs scope : List Char} {a : Ipv6} (hcolon : ':' ∈ cs)
    (hsigns : ∀ c ∈ cs, c ≠ '/' ∧ c ≠ '%') (h : Ipv6.ofChars? cs = some a)
    (nonempty : scope ≠ []) (plain : ∀ c ∈ scope, c ≠ '/' ∧ c ≠ '%')
    : ofChars? (cs ++ '%' :: scope) = some (.v6 a (some (String.ofList scope))) := by
  have hslash : (cs ++ '%' :: scope).contains '/' = false := by
    rw [List.contains_eq_mem, decide_eq_false_iff_not]
    intro hmem
    rcases List.mem_append.1 hmem with hmem | hmem
    · exact (hsigns _ hmem).1 rfl
    · rcases List.mem_cons.1 hmem with hmem | hmem
      · exact absurd hmem (by decide)
      · exact (plain _ hmem).1 rfl
  have hfront : (cs ++ '%' :: scope).takeWhile (· ≠ '%') = cs := by
    rw [List.takeWhile_append_of_pos (by simpa using fun c hc => (hsigns c hc).2)]
    simp
  have hpercent : scope.contains '%' = false := by
    rw [List.contains_eq_mem, decide_eq_false_iff_not]
    exact fun hmem => (plain _ hmem).2 rfl
  have hsome : scope.isEmpty = false := by simpa using nonempty
  simp only [ofChars?, hslash, Ipv4.ofChars?_of_colon (List.mem_append_left _ hcolon), scoped?,
    hfront, List.drop_left, hpercent, hsome, h]
  rfl

/-- A text read without a look at version 4 is all of it version 6, or version 6, a percent sign
and a scope that can be written.
-/
theorem scoped?_cases {cs : List Char} {a : Address} (no_slash : '/' ∉ cs)
    (h : scoped? cs = some a)
    : (∃ b, Ipv6.ofChars? cs = some b ∧ a = .v6 b none)
      ∨ ∃ front scope b,
          cs = front ++ '%' :: scope ∧ Ipv6.ofChars? front = some b
          ∧ scope ≠ [] ∧ (∀ c ∈ scope, c ≠ '/' ∧ c ≠ '%')
          ∧ a = .v6 b (some (String.ofList scope)) := by
  have parts := List.takeWhile_append_dropWhile (p := fun c => decide (c ≠ '%')) (l := cs)
  unfold scoped? at h
  simp only [drop_length_takeWhile] at h
  split at h
  · next unscoped =>
    obtain ⟨b, hb, rfl⟩ := Option.map_eq_some_iff.1 h
    rw [unscoped, List.append_nil] at parts
    rw [parts] at hb
    exact .inl ⟨b, hb, rfl⟩
  · next sign scope behind =>
    split at h
    · cases h
    · next plain =>
      obtain ⟨b, hb, rfl⟩ := Option.map_eq_some_iff.1 h
      have percent : sign = '%' := by
        have := List.head?_dropWhile_not (fun c => decide (c ≠ '%')) cs
        rw [behind] at this
        simpa using this
      simp only [Bool.or_eq_true, not_or, List.isEmpty_iff, List.contains_eq_mem,
        decide_eq_true_eq] at plain
      rw [behind, percent] at parts
      refine .inr ⟨_, scope, b, parts.symm, hb, plain.1, fun c hc => ⟨?_, ?_⟩, rfl⟩
      · rintro rfl
        exact no_slash (parts ▸ by simp [hc])
      · rintro rfl
        exact plain.2 hc

/-- A literal is an address of version 4, one of version 6, or one of version 6 with a percent
sign and a scope that can be written.
-/
theorem ofChars?_cases {cs : List Char} {a : Address} (h : ofChars? cs = some a)
    : (∃ b, Ipv4.ofChars? cs = some b ∧ a = .v4 b)
      ∨ (∃ b, Ipv6.ofChars? cs = some b ∧ a = .v6 b none)
      ∨ ∃ front scope b,
          cs = front ++ '%' :: scope ∧ Ipv6.ofChars? front = some b
          ∧ scope ≠ [] ∧ (∀ c ∈ scope, c ≠ '/' ∧ c ≠ '%')
          ∧ a = .v6 b (some (String.ofList scope)) := by
  unfold ofChars? at h
  split at h
  · cases h
  · next no_slash =>
    split at h
    · next b hb => exact .inl ⟨b, hb, (Option.some.inj h).symm⟩
    · exact .inr (scoped?_cases (by simpa using no_slash) h)

/-- The address of a literal has a scope that can be written. -/
theorem wellScoped_of_read {cs : List Char} {a : Address} (h : ofChars? cs = some a)
    : a.WellScoped := by
  obtain ⟨b, -, rfl⟩ | ⟨b, -, rfl⟩ | ⟨front, scope, b, -, -, nonempty, no_sign, rfl⟩ :=
    ofChars?_cases h
  · trivial
  · trivial
  · rw [WellScoped, String.toList_ofList]
    exact ⟨nonempty, no_sign⟩

theorem toList_text_scoped (a : Ipv6) (scope : String)
    : (Address.v6 a (some scope)).text.toList = a.chars ++ '%' :: scope.toList := by
  simp [text]

/-- The canonical text of an address reads back, with the scope that can be written. -/
theorem ofText?_text_of_wellScoped {a : Address} (h : a.WellScoped)
    : ofText? a.text = some a := by
  cases a with
  | v4 a => exact ofText?_text (.v4 a)
  | v6 a scope =>
      cases scope with
      | none => exact ofText?_text (.v6 a none)
      | some scope =>
          rw [ofText?, toList_text_scoped, ofChars?_of_scoped a.chars_signs.1 a.chars_signs.2
            a.ofChars?_chars h.1 h.2, String.ofList_toList]

/-- Addresses of literals with one canonical text are the same. -/
theorem eq_of_text_eq {a b : Address} (ha : a.WellScoped) (hb : b.WellScoped)
    (h : a.text = b.text)
    : a = b := by
  have read := ofText?_text_of_wellScoped ha
  rw [h, ofText?_text_of_wellScoped hb] at read
  exact (Option.some.inj read).symm

end Address

-----------------------------------------------------------------------------------------
-- Case in addresses
-----------------------------------------------------------------------------------------

namespace Ipv4

/-- A number is read from digits alone, and those have no case. -/
theorem byte?_map_toLower (cs : List Char) : byte? (cs.map Char.toLower) = byte? cs := by
  have digits : ((fun c : Char => decide ('0' ≤ c) && decide (c ≤ '9')) ∘ Char.toLower)
      = fun c => decide ('0' ≤ c) && decide (c ≤ '9') :=
    funext (apply_toLower (f := fun c => decide ('0' ≤ c) && decide (c ≤ '9')) (by decide))
  by_cases all : cs.all (fun c => '0' ≤ c && c ≤ '9') = true
  · have same : cs.map Char.toLower = cs := by
      refine (List.map_congr_left fun c hc => ?_).trans (List.map_id cs)
      have digit := List.all_eq_true.1 all c hc
      simp only [Bool.and_eq_true, decide_eq_true_eq] at digit
      have : c.toNat ≤ 57 := digit.2
      exact forall_ascii
        (P := fun c => '0' ≤ c ∧ c ≤ '9' → c.toLower = c) (by decide) (by omega) digit
    rw [same]
  · have all' : (cs.map Char.toLower).all (fun c => '0' ≤ c && c ≤ '9') = false := by
      rw [List.all_map, digits]
      simpa using all
    simp only [Bool.not_eq_true] at all
    simp [byte?, all, all']

theorem ofChars?_map_toLower (cs : List Char)
    : ofChars? (cs.map Char.toLower) = ofChars? cs := by
  have dot := toLower_eq_iff '.' (by decide) (by decide)
  have bytes : byte? ∘ List.map Char.toLower = byte? := funext byte?_map_toLower
  simp only [ofChars?, splitOn_map dot, List.mapM_map, bytes]

end Ipv4

namespace Ipv6

theorem hexValue?_comp_toLower : hexValue? ∘ Char.toLower = hexValue? :=
  funext (apply_toLower (by decide))

theorem piece?_map_toLower (cs : List Char) : piece? (cs.map Char.toLower) = piece? cs := by
  simp only [piece?, group?, List.isEmpty_map, List.length_map, List.mapM_map,
    hexValue?_comp_toLower]

theorem pieces?_map_toLower (cs : List Char) : pieces? (cs.map Char.toLower) = pieces? cs := by
  have colon := toLower_eq_iff ':' (by decide) (by decide)
  have dot := toLower_eq_iff '.' (by decide) (by decide)
  have same : piece? ∘ List.map Char.toLower = piece? := funext piece?_map_toLower
  simp only [pieces?, splitOn_map colon, List.getLast?_map]
  cases (splitOn ':' cs).getLast? with
  | none => rfl
  | some last =>
      have dots : (last.map Char.toLower).contains '.' = last.contains '.' := by
        rw [Bool.eq_iff_iff]
        simp [dot]
      simp only [Option.map_some, dots, ← List.map_dropLast, List.mapM_map, same,
        Ipv4.ofChars?_map_toLower]

/-- Addresses of version 6 are read in any case. -/
theorem ofChars?_map_toLower (cs : List Char)
    : ofChars? (cs.map Char.toLower) = ofChars? cs := by
  simp only [ofChars?, pieces?_map_toLower]

end Ipv6

-----------------------------------------------------------------------------------------
-- Signs of addresses in lower-case texts
-----------------------------------------------------------------------------------------

namespace Text

/-- The character comes before the letter `g`, like all those of an address without a scope. -/
def IsEarly (c : Char) : Prop :=
  0 < c.toNat ∧ c.toNat < 0x67

instance (c : Char) : Decidable (IsEarly c) :=
  inferInstanceAs (Decidable (_ ∧ _))

/-- All letters that are no ASCII ones have lower-case forms after the letter `f`. -/
theorem caseRuns_late : ∀ r ∈ caseRuns, r.last < 0x80 ∨ 0x67 ≤ r.first + r.shift := by
  decide +kernel

/-- The lower-case form of a character that is no ASCII one starts with a later character. -/
theorem exists_lowerChar {c : Char} (hc : ¬c.toNat < 0x80)
    : ∃ d rest, lowerChar c = d :: rest ∧ ¬IsEarly d := by
  simp only [lowerChar, hc, if_false]
  split
  · exact ⟨'i', _, rfl, by decide⟩
  · split
    · next r found =>
      refine ⟨_, [], rfl, ?_⟩
      have listed := List.mem_of_find?_eq_some found
      have range := List.find?_some found
      simp only [Bool.and_eq_true, decide_eq_true_eq] at range
      have late : 0x67 ≤ (c.toNat : ℤ) + r.shift := by
        rcases caseRuns_late r listed with ascii | late
        · omega
        · omega
      have number : ∀ n, (Char.ofNat n).toNat = n ∨ (Char.ofNat n).toNat = 0 := by
        intro n
        by_cases valid : n.isValidChar
        · have same : Char.ofNat n = Char.ofNatAux n valid := dif_pos valid
          exact .inl (same ▸ rfl)
        · have same : Char.ofNat n = Char.ofNatAux 0 (.inl (by decide)) := dif_neg valid
          exact .inr (same ▸ rfl)
      rintro ⟨positive, early⟩
      rcases number ((c.toNat : ℤ) + r.shift).toNat with same | zero <;> omega
    · refine ⟨c, [], rfl, ?_⟩
      rintro ⟨-, early⟩
      omega

theorem not_isEarly_sigma (before after : List Char) : ¬IsEarly (sigma before after) := by
  unfold sigma
  split <;> decide

/-- The lower-case form of a text that is not empty starts with that of its first character, and
an early character there is that character but for its case.
-/
theorem lowerAfter_cons (before : List Char) (c : Char) (rest : List Char)
    : ∃ d more,
        lowerAfter before (c :: rest) = d :: (more ++ lowerAfter (c :: before) rest)
        ∧ (IsEarly d → d = c.toLower ∧ more = []) := by
  rw [lowerAfter]
  split
  · exact ⟨_, [], rfl, fun early => absurd early (not_isEarly_sigma before rest)⟩
  · by_cases hc : c.toNat < 0x80
    · exact ⟨c.toLower, [], by rw [lowerChar_of_ascii hc]; rfl, fun _ => ⟨rfl, rfl⟩⟩
    · obtain ⟨d, more, hlower, late⟩ := exists_lowerChar hc
      exact ⟨d, more, by rw [hlower]; rfl, fun early => absurd early late⟩

/-- Lower-case text that starts with early characters comes from ASCII text that is the same but
for its case, by induction on those characters.
-/
theorem exists_of_lowerAfter_eq_append {before cs front back : List Char}
    (early : ∀ c ∈ front, IsEarly c) (h : lowerAfter before cs = front ++ back)
    : ∃ xs rest before',
        cs = xs ++ rest ∧ xs.map Char.toLower = front ∧ lowerAfter before' rest = back := by
  induction front generalizing before cs with
  | nil => exact ⟨[], cs, before, rfl, rfl, h⟩
  | cons d front ih =>
      cases cs with
      | nil => cases h
      | cons c cs =>
          obtain ⟨e, more, hlower, same⟩ := lowerAfter_cons before c cs
          rw [hlower, List.cons_append] at h
          obtain ⟨rfl, htail⟩ := List.cons.inj h
          obtain ⟨rfl, rfl⟩ := same (early e (by simp))
          obtain ⟨xs, rest, before', rfl, rfl, hrest⟩ :=
            ih (fun c hc => early c (List.mem_cons_of_mem _ hc)) htail
          exact ⟨c :: xs, rest, before', rfl, rfl, hrest⟩

theorem eq_nil_of_lowerAfter {before cs : List Char} (h : lowerAfter before cs = [])
    : cs = [] := by
  cases cs with
  | nil => rfl
  | cons c rest =>
      obtain ⟨d, more, hlower, -⟩ := lowerAfter_cons before c rest
      rw [hlower] at h
      cases h

/-- Early text that is the lower-case form of a text differs from it in the case of ASCII letters
only.
-/
theorem map_toLower_of_lowerAfter {before cs front : List Char}
    (early : ∀ c ∈ front, IsEarly c) (h : lowerAfter before cs = front)
    : cs.map Char.toLower = front := by
  rw [← List.append_nil front] at h
  obtain ⟨xs, rest, before', rfl, hxs, hrest⟩ := exists_of_lowerAfter_eq_append early h
  rw [eq_nil_of_lowerAfter hrest, List.append_nil, hxs]

/-- A plain lower-case character stays in the lower-case form, by induction on the text. -/
theorem mem_lowerAfter {c : Char} {before cs : List Char} (plain : isPlainLower c = true)
    (hc : c ∈ cs)
    : c ∈ lowerAfter before cs := by
  induction cs generalizing before with
  | nil => cases hc
  | cons d rest ih =>
      rcases List.mem_cons.1 hc with rfl | hc
      · have not_sigma : c.toNat ≠ 0x3a3 := by
          simp only [isPlainLower, Bool.and_eq_true, decide_eq_true_eq] at plain
          omega
        simp [lowerAfter, not_sigma, lowerChar_of_isPlainLower plain]
      · exact List.mem_append_right _ (ih hc)

end Text

-----------------------------------------------------------------------------------------
-- Lower-case texts that are canonical
-----------------------------------------------------------------------------------------

theorem isEarly_digitChar : ∀ d < 16, IsEarly (Nat.digitChar d) := by decide

theorem Ipv4.isEarly_of_mem_chars {a : Ipv4} {c : Char} (h : c ∈ a.chars) : IsEarly c := by
  rcases mem_intercalate h with rfl | ⟨piece, hpiece, hc⟩
  · decide
  · obtain ⟨b, -, rfl⟩ := List.mem_map.1 hpiece
    obtain ⟨d, hd, rfl⟩ := exists_digit_of_mem_toDigits (by decide) hc
    exact isEarly_digitChar d (by omega)

namespace Ipv6

theorem isEarly_of_mem_chars {a : Ipv6} {c : Char} (h : c ∈ a.chars) : IsEarly c := by
  rcases mem_chars h with rfl | ⟨d, hd, rfl⟩
  · decide
  · exact isEarly_digitChar d hd

/-- Text that is the canonical form of an address but for its case is read as the address, and
has the signs that the canonical form has.
-/
theorem read_of_map_toLower {a : Ipv6} {cs : List Char} (h : cs.map Char.toLower = a.chars)
    : ':' ∈ cs ∧ (∀ c ∈ cs, c ≠ '/' ∧ c ≠ '%') ∧ ofChars? cs = some a := by
  have comes {sign : Char} (hsign : sign ∈ a.chars)
      (alone : ∀ c : Char, c.toLower = sign ↔ c = sign)
      : sign ∈ cs := by
    rw [← h] at hsign
    obtain ⟨c, hc, rfl⟩ := List.mem_map.1 hsign
    rwa [(alone c).1 rfl] at hc
  refine ⟨comes a.chars_signs.1 (toLower_eq_iff ':' (by decide) (by decide)), ?_, ?_⟩
  · intro c hc
    have signs := a.chars_signs.2 c.toLower (h ▸ List.mem_map_of_mem hc)
    constructor
    · rintro rfl
      exact signs.1 rfl
    · rintro rfl
      exact signs.2 rfl
  · rw [← ofChars?_map_toLower, h, ofChars?_chars]

end Ipv6

namespace Address

/-- Text that is the canonical form of an address of version 4 is read as the address. -/
theorem ofChars?_of_map_toLower_v4 {a : Ipv4} {cs : List Char}
    (h : cs.map Char.toLower = a.chars)
    : ofChars? cs = some (.v4 a) := by
  have slash : cs.contains '/' = false := by
    rw [List.contains_eq_mem, decide_eq_false_iff_not]
    intro hmem
    have : '/' ∈ a.chars := h ▸ List.mem_map_of_mem (f := Char.toLower) hmem
    rcases Ipv4.mem_chars this with digit | dot
    · exact absurd digit (by decide)
    · exact absurd dot (by decide)
  have read : Ipv4.ofChars? cs = some a := by
    rw [← Ipv4.ofChars?_map_toLower, h, Ipv4.ofChars?_chars]
  simp only [ofChars?, slash, read]
  rfl

/-- Text whose lower-case form is an address of version 6, a percent sign and a scope is read: the
scope may be in any case, and it has the signs that its lower-case form has.
-/
theorem exists_read_of_lower_scoped {a : Ipv6} {cs scope : List Char}
    (nonempty : scope ≠ []) (plain : ∀ c ∈ scope, c ≠ '/' ∧ c ≠ '%')
    (h : lower cs = a.chars ++ '%' :: scope)
    : ∃ b, ofChars? cs = some b := by
  obtain ⟨front, rest, before, rfl, hfront, hrest⟩ :=
    exists_of_lowerAfter_eq_append (fun _ => Ipv6.isEarly_of_mem_chars) h
  obtain ⟨colon, signs, read⟩ := Ipv6.read_of_map_toLower hfront
  have percent : lowerAfter before rest = ['%'] ++ scope := hrest
  have early : ∀ c ∈ ['%'], IsEarly c := by
    intro c hc
    rw [List.mem_singleton.1 hc]
    decide
  obtain ⟨sign, written, before', rfl, hsign, hwritten⟩ :=
    exists_of_lowerAfter_eq_append early percent
  obtain ⟨c, rfl, hc⟩ := List.map_eq_singleton_iff.1 hsign
  obtain rfl := (toLower_eq_iff '%' (by decide) (by decide) c).1 hc
  refine ⟨_, ofChars?_of_scoped colon signs read ?_ ?_⟩
  · rintro rfl
    exact nonempty hwritten.symm
  · intro c hc
    constructor
    · rintro rfl
      exact (plain '/' (hwritten ▸ mem_lowerAfter (by decide) hc)).1 rfl
    · rintro rfl
      exact (plain '%' (hwritten ▸ mem_lowerAfter (by decide) hc)).2 rfl

/-- A text is a literal if its lower-case form is the canonical text of an address with a scope
that can be written: what stands before the scope differs in the case of ASCII letters only, and
a scope may be anything.
-/
theorem read_of_lower {cs : List Char} {a : Address} (scope : a.WellScoped)
    (h : lower cs = a.text.toList)
    : ∃ b, ofChars? cs = some b := by
  cases a with
  | v4 a =>
      rw [text, Ipv4.text, String.toList_ofList] at h
      exact ⟨_, ofChars?_of_map_toLower_v4
        (map_toLower_of_lowerAfter (fun _ => Ipv4.isEarly_of_mem_chars) h)⟩
  | v6 a part =>
      cases part with
      | none =>
          have text : lower cs = a.chars := by simpa [text] using h
          obtain ⟨colon, signs, read⟩ := Ipv6.read_of_map_toLower
            (map_toLower_of_lowerAfter (fun _ => Ipv6.isEarly_of_mem_chars) text)
          exact ⟨_, ofChars?_of_ipv6 colon signs read⟩
      | some part =>
          rw [toList_text_scoped] at h
          exact exists_read_of_lower_scoped scope.1 scope.2 h

end Address

end NameserverAudit
