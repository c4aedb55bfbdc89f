import NameserverAudit.Proofs.Name.Reading

/-! A grammar of host-style domains, which says what may be written without saying how it is
checked, and the names of these domains. The characters of a host-style domain are plain, none of
its labels is empty or too long, and its text is short enough for the bound on the wire. Main
statements: the domains that are accepted are those that the grammar writes, and each of them is
the text of a name.
-/

namespace NameserverAudit

open Text DomainName

/-- The bytes of pieces on the wire are their characters, one more for each piece and one for
the root, by induction on the pieces.
-/
theorem wireLength_pieces (pieces : List (List Char))
    : wireLength (pieces.map bytesOf) = (pieces.flatMap (· ++ ['.'])).length + 1 := by
  induction pieces with
  | nil => rfl
  | cons piece pieces ih =>
      simp only [List.map_cons, wireLength, ih, List.flatMap_cons, List.length_append,
        List.length_cons, List.length_nil]
      simp [bytesOf]
      omega

namespace Host

-----------------------------------------------------------------------------------------
-- A grammar of host-style domains
-----------------------------------------------------------------------------------------

/-- Letters, digits and hyphens, with a letter or a digit at either end. -/
inductive Word : List Char → Prop
  | single {c : Char} (only : isAlphanumeric c = true) : Word [c]
  | framed {first last : Char} {middle : List Char} (begins : isAlphanumeric first = true)
    (between : ∀ c ∈ middle, isAlphanumeric c = true ∨ c = '-')
    (ends : isAlphanumeric last = true)
    : Word (first :: middle ++ [last])

/-- A label is a word, or one behind an underscore. The bound counts the underscore. -/
inductive LabelText : List Char → Prop
  | word {cs : List Char} (word : Word cs) (bound : cs.length ≤ 63) : LabelText cs
  | underscored {cs : List Char} (word : Word cs) (bound : cs.length + 1 ≤ 63)
    : LabelText ('_' :: cs)

/-- A text is a host-style domain: it consists of the given labels, with dots between them. -/
structure HasLabels (s : String) (labels : List (List Char)) : Prop where
  joined : s.toList = List.intercalate ['.'] labels
  each : ∀ label ∈ labels, LabelText label
  least : 1 ≤ s.length
  greatest : s.length ≤ 253

theorem isWord_iff {cs : List Char} : isWord cs = true ↔ Word cs := by
  constructor
  · intro h
    cases cs with
    | nil => cases h
    | cons first rest =>
        rcases List.eq_nil_or_concat rest with rfl | ⟨middle, last, rfl⟩
        · simp only [isWord, List.head?_cons, List.getLast?_singleton, Bool.and_eq_true] at h
          exact .single h.1.1
        · rw [List.concat_eq_append, ← List.cons_append] at h ⊢
          simp only [isWord, List.head?_append, List.head?_cons, Option.some_or,
            List.getLast?_concat, Bool.and_eq_true, List.all_eq_true, Bool.or_eq_true,
            decide_eq_true_eq] at h
          obtain ⟨⟨begins, ends⟩, all⟩ := h
          exact .framed begins (fun c hc => all c (by simp [hc])) ends
  · rintro (only | ⟨begins, between, ends⟩)
    · simp [isWord, only]
    · simp only [isWord, List.head?_append, List.head?_cons, Option.some_or, List.getLast?_concat,
        begins, ends, Bool.true_and, List.all_eq_true, Bool.or_eq_true, decide_eq_true_eq,
        List.mem_append, List.mem_cons, List.not_mem_nil, or_false]
      rintro c ((rfl | hc) | rfl)
      · exact .inl begins
      · exact between c hc
      · exact .inl ends

theorem Word.head {cs : List Char} (h : Word cs) : ∃ c rest, cs = c :: rest ∧ c ≠ '_' := by
  have letter {c : Char} (hc : isAlphanumeric c = true) : c ≠ '_' := by
    rintro rfl
    exact absurd hc (by decide)
  cases h with
  | single only => exact ⟨_, _, rfl, letter only⟩
  | framed begins between ends => exact ⟨_, _, rfl, letter begins⟩

/-- A word does not begin with an underscore, so nothing is taken off it. -/
theorem body_of_word {cs : List Char} (h : Word cs) : body cs = cs := by
  obtain ⟨c, rest, rfl, hc⟩ := h.head
  unfold body
  split
  · next heq => exact absurd (List.cons.inj heq).1 hc
  · rfl

theorem isLabel_iff {cs : List Char} : isLabel cs = true ↔ LabelText cs := by
  simp only [isLabel, Bool.and_eq_true, decide_eq_true_eq, isWord_iff]
  constructor
  · rintro ⟨bound, word⟩
    unfold body at word
    split at word
    · exact .underscored word bound
    · exact .word word bound
  · rintro (⟨word, bound⟩ | ⟨word, bound⟩)
    · exact ⟨bound, by rwa [body_of_word word]⟩
    · exact ⟨bound, word⟩

theorem isDomain_iff_labels {s : String}
    : isDomain s = true
      ↔ s.length ≤ 253 ∧ ∀ label ∈ splitOn '.' s.toList, LabelText label := by
  simp only [isDomain, Bool.and_eq_true, decide_eq_true_eq, List.all_eq_true, isLabel_iff,
    String.length_toList]

-----------------------------------------------------------------------------------------
-- Characters of a host-style domain
-----------------------------------------------------------------------------------------

/-- A character that may stand in a host-style domain. -/
def IsHostChar (c : Char) : Prop := isAlphanumeric c = true ∨ c = '-' ∨ c = '_' ∨ c = '.'

instance : DecidablePred IsHostChar := fun _ => inferInstanceAs (Decidable (_ ∨ _))

/-- Host characters are ASCII, so that a fact of all of them can be checked one by one. -/
theorem forall_hostChar {P : Char → Prop}
    (check : ∀ n < 128, IsHostChar (Char.ofNat n) → P (Char.ofNat n)) {c : Char}
    (h : IsHostChar c)
    : P c := by
  have ascii : c.toNat < 0x80 := by
    rcases h with h | rfl | rfl | rfl
    · simp only [isAlphanumeric, Bool.or_eq_true, Bool.and_eq_true, decide_eq_true_eq] at h
      rcases h with ⟨-, h⟩ | ⟨-, h⟩
      · exact Nat.lt_of_le_of_lt (m := 'z'.toNat) h (by decide)
      · exact Nat.lt_of_le_of_lt (m := '9'.toNat) h (by decide)
    all_goals decide
  exact forall_ascii (P := fun c => IsHostChar c → P c) check ascii h

section HostChar

variable {c : Char} (h : IsHostChar c)

include h

theorem IsHostChar.plain : c.toNat < 0x80 ∧ c ≠ '\\' :=
  forall_hostChar (P := fun c => c.toNat < 0x80 ∧ c ≠ '\\') (by decide) h

theorem IsHostChar.plainLower : isPlainLower c = true :=
  forall_hostChar (P := fun c => isPlainLower c = true) (by decide) h

theorem IsHostChar.not_blank : isBlank c = false :=
  forall_hostChar (P := fun c => isBlank c = false) (by decide) h

/-- A host character stands for itself in the text of a name, unless it is a dot. -/
theorem IsHostChar.byteText_eq (undotted : c ≠ '.') : byteText (UInt8.ofNat c.toNat) = [c] :=
  forall_hostChar (P := fun c => c ≠ '.' → byteText (UInt8.ofNat c.toNat) = [c]) (by decide) h
    undotted

end HostChar

theorem Word.letters {cs : List Char} (h : Word cs)
    : ∀ c ∈ cs, isAlphanumeric c = true ∨ c = '-' := by
  intro c hc
  cases h with
  | single only => exact .inl (List.mem_singleton.1 hc ▸ only)
  | framed begins between ends =>
      rcases List.mem_append.1 hc with hc | hc
      · rcases List.mem_cons.1 hc with rfl | hc
        · exact .inl begins
        · exact between c hc
      · exact .inl (List.mem_singleton.1 hc ▸ ends)

theorem LabelText.ne_nil {cs : List Char} (h : LabelText cs) : cs ≠ [] := by
  cases h with
  | word word bound =>
      obtain ⟨c, rest, rfl, -⟩ := word.head
      exact List.cons_ne_nil _ _
  | underscored word bound => exact List.cons_ne_nil _ _

theorem LabelText.length_le {cs : List Char} (h : LabelText cs) : cs.length ≤ 63 := by
  cases h with
  | word word bound => exact bound
  | underscored word bound => exact bound

/-- A label of a host-style domain consists of host characters, none of which is a dot. -/
theorem LabelText.isHostChar {cs : List Char} (h : LabelText cs)
    : ∀ c ∈ cs, IsHostChar c ∧ c ≠ '.' := by
  have host {c : Char} (hc : isAlphanumeric c = true ∨ c = '-') : IsHostChar c ∧ c ≠ '.' := by
    refine ⟨hc.imp_right .inl, ?_⟩
    rintro rfl
    exact absurd hc (by decide)
  intro c hc
  cases h with
  | word word bound => exact host (word.letters c hc)
  | underscored word bound =>
      rcases List.mem_cons.1 hc with rfl | hc
      · exact ⟨.inr (.inr (.inl rfl)), by decide⟩
      · exact host (word.letters c hc)

theorem LabelText.dot_not_mem {cs : List Char} (h : LabelText cs) : '.' ∉ cs :=
  fun dot => (h.isHostChar '.' dot).2 rfl

-----------------------------------------------------------------------------------------
-- Labels of a host-style domain
-----------------------------------------------------------------------------------------

theorem labelText_of_mem {s : String} {piece : List Char} (h : isDomain s = true)
    (hp : piece ∈ splitOn '.' s.toList)
    : LabelText piece :=
  (isDomain_iff_labels.1 h).2 piece hp

/-- A host-style domain has its pieces as its labels. -/
theorem hasLabels_splitOn {s : String} (h : isDomain s = true)
    : HasLabels s (splitOn '.' s.toList) := by
  obtain ⟨greatest, each⟩ := isDomain_iff_labels.1 h
  refine ⟨(intercalate_splitOn '.' s.toList).symm, each, ?_, greatest⟩
  rw [Nat.one_le_iff_ne_zero, ← String.length_toList, ne_eq, List.length_eq_zero_iff]
  intro empty
  rw [empty] at each
  exact (each [] (by simp [splitOn])).ne_nil rfl

/-- The labels of a host-style domain are its pieces: no label has a dot. -/
theorem HasLabels.splitOn_eq {s : String} {labels : List (List Char)} (h : HasLabels s labels)
    : splitOn '.' s.toList = labels := by
  have filled : labels ≠ [] := by
    rintro rfl
    have empty : s.length = 0 := by
      rw [← String.length_toList, h.joined]
      rfl
    exact absurd h.least (by omega)
  rw [h.joined]
  exact splitOn_intercalate filled fun label hlabel => (h.each label hlabel).dot_not_mem

/-- The domains that are accepted are those that the grammar writes. -/
theorem isDomain_iff_hasLabels {s : String}
    : isDomain s = true ↔ ∃ labels, HasLabels s labels := by
  refine ⟨fun h => ⟨_, hasLabels_splitOn h⟩, ?_⟩
  rintro ⟨labels, h⟩
  refine isDomain_iff_labels.2 ⟨h.greatest, ?_⟩
  rw [h.splitOn_eq]
  exact h.each

/-- A host-style domain consists of host characters, which stand in its labels or part them. -/
theorem isHostChar_of_mem {s : String} {c : Char} (h : isDomain s = true)
    (hc : c ∈ s.toList)
    : IsHostChar c := by
  rw [(hasLabels_splitOn h).joined] at hc
  rcases mem_intercalate hc with rfl | ⟨piece, hp, hc⟩
  · exact .inr (.inr (.inr rfl))
  · exact ((labelText_of_mem h hp).isHostChar c hc).1

-----------------------------------------------------------------------------------------
-- Texts of host-style domains
-----------------------------------------------------------------------------------------

variable {s : String} (h : isDomain s = true)

include h

/-- A host-style domain does not end with a dot, because its last label does not. -/
theorem dropFinalDots_domain : dropFinalDots s.toList = s.toList := by
  obtain ⟨init, last, hpieces, htext⟩ := exists_splitOn '.' s.toList
  have hlabel : LabelText last := labelText_of_mem h (by simp [hpieces])
  rw [htext]
  exact dropFinalDots_piece _ hlabel.ne_nil hlabel.dot_not_mem

theorem trim_domain : trim s.toList = s.toList := by
  have hblank (c : Char) (hc : c ∈ s.toList) : isBlank c = false :=
    (isHostChar_of_mem h hc).not_blank
  exact trim_of_ends (fun c hc => hblank c (List.mem_of_mem_head? hc))
    (fun c hc => hblank c (List.mem_of_getLast? hc))

theorem lower_domain : lower s.toList = s.toList :=
  lowerAfter_of_isPlainLower [] fun _ hc => (isHostChar_of_mem h hc).plainLower

/-- The canonical text of a host-style domain is the domain with a dot behind it. -/
theorem canonical_domain : canonical s.toList = s.toList ++ ['.'] := by
  rw [canonical, trim_domain h, lower_domain h, dropFinalDots_domain h]

-----------------------------------------------------------------------------------------
-- Names of host-style domains
-----------------------------------------------------------------------------------------

/-- The labels of a host-style domain keep the bounds of a name: its text, which has at most 253
characters, takes two bytes more on the wire.
-/
theorem validLabels_domain : ValidLabels ((splitOn '.' s.toList).map bytesOf) := by
  constructor
  · intro l hl
    obtain ⟨piece, hp, rfl⟩ := List.mem_map.1 hl
    have hlabel : LabelText piece := labelText_of_mem h hp
    have hne := List.length_pos_iff.2 hlabel.ne_nil
    have hle := hlabel.length_le
    simp only [bytesOf, List.length_map]
    omega
  · have hlength := (isDomain_iff_labels.1 h).1
    rw [wireLength_pieces, flatMap_splitOn, List.length_append, List.length_singleton,
      String.length_toList]
    omega

/-- A host-style domain is the text of a name, that with its pieces as labels. -/
theorem exists_name
    : ∃ n,
        DomainName.ofText (canonicalName s) = .ok n
        ∧ n.labels = (splitOn '.' s.toList).map bytesOf := by
  have hlabel (piece : List Char) (hp : piece ∈ splitOn '.' s.toList) : LabelText piece :=
    labelText_of_mem h hp
  have hempty : [] ∉ splitOn '.' s.toList := fun hp => (hlabel [] hp).ne_nil rfl
  have hroot : splitOn '.' s.toList ≠ [[]] := fun hp => hempty (by simp [hp])
  have hplain (piece : List Char) (hp : piece ∈ splitOn '.' s.toList)
      : IsPlain piece ∧ '.' ∉ piece :=
    ⟨fun c hc => ((hlabel piece hp).isHostChar c hc).1.plain, (hlabel piece hp).dot_not_mem⟩
  obtain ⟨n, hn⟩ := (ofLabels_isOk_iff _).2 (validLabels_domain h)
  refine ⟨n, ?_, labels_of_ofLabels hn⟩
  rw [canonicalName, canonical_domain h, ← flatMap_splitOn,
    ofText_pieces (splitOn_ne_nil _ _) hplain, if_neg hroot, if_neg hempty, hn]

theorem exists_question
    : ∃ q, Question.ofText (canonicalName s) = .ok q := by
  obtain ⟨n, hn, -⟩ := exists_name h
  exact ⟨⟨canonicalName s, n⟩, by simp [Question.ofText, hn]⟩

end Host

end NameserverAudit
