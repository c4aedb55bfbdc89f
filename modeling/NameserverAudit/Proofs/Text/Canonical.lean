import NameserverAudit.Name.Canonical

/-! Trimming, lower case and canonical text. On ASCII text lower case goes character by
character, so the canonical text of ASCII text is its own canonical text.
-/

namespace NameserverAudit

namespace Text

/-- All characters are ASCII. -/
def IsAscii (cs : List Char) : Prop := ∀ c ∈ cs, c.toNat < 0x80

theorem forall_ascii {P : Char → Prop} (h : ∀ n < 128, P (Char.ofNat n)) {c : Char}
    (hc : c.toNat < 0x80)
    : P c :=
  Char.ofNat_toNat c ▸ h c.toNat hc

theorem lowerChar_of_ascii {c : Char} (h : c.toNat < 0x80) : lowerChar c = [c.toLower] :=
  forall_ascii (P := fun c => lowerChar c = [c.toLower]) (by decide) h

theorem toLower_ascii {c : Char} (h : c.toNat < 0x80) : c.toLower.toNat < 0x80 :=
  forall_ascii (P := fun c => c.toLower.toNat < 0x80) (by decide) h

theorem isBlank_toLower {c : Char} (h : c.toNat < 0x80) : isBlank c.toLower = isBlank c :=
  forall_ascii (P := fun c => isBlank c.toLower = isBlank c) (by decide) h

theorem toLower_toLower {c : Char} (h : c.toNat < 0x80) : c.toLower.toLower = c.toLower :=
  forall_ascii (P := fun c => c.toLower.toLower = c.toLower) (by decide) h

/-- Lower case of ASCII text goes character by character, by induction on the text: the
sigma rule never applies. -/
theorem lowerAfter_of_ascii {cs : List Char} (before : List Char) (h : IsAscii cs)
    : lowerAfter before cs = cs.map Char.toLower := by
  induction cs generalizing before with
  | nil => rfl
  | cons c rest ih =>
      have hc : c.toNat < 0x80 := h c (by simp)
      have hs : c.toNat ≠ 0x3a3 := by omega
      have hrest := ih (c :: before) fun d hd => h d (List.mem_cons_of_mem c hd)
      simp [lowerAfter, hs, lowerChar_of_ascii hc, hrest]

theorem lower_of_ascii {cs : List Char} (h : IsAscii cs) : lower cs = cs.map Char.toLower :=
  lowerAfter_of_ascii [] h

theorem dropRightWhile_of_getLast? {p : Char → Bool} {cs : List Char}
    (h : ∀ c, cs.getLast? = some c → p c = false)
    : dropRightWhile p cs = cs := by
  rcases List.eq_nil_or_concat cs with rfl | ⟨front, c, rfl⟩
  · rfl
  · simp only [List.concat_eq_append] at h ⊢
    exact dropRightWhile_concat_of_neg front (h c (by simp))

/-- The end after dropping lies outside the class, since the reversed text starts there. -/
theorem getLast?_dropRightWhile {p : Char → Bool} {cs : List Char} {c : Char}
    (h : (dropRightWhile p cs).getLast? = some c)
    : p c = false := by
  rw [dropRightWhile, List.getLast?_reverse] at h
  have := List.head?_dropWhile_not p cs.reverse
  rw [h] at this
  simpa using this

theorem dropRightWhile_dropRightWhile (p : Char → Bool) (cs : List Char)
    : dropRightWhile p (dropRightWhile p cs) = dropRightWhile p cs :=
  dropRightWhile_of_getLast? fun _ hc => getLast?_dropRightWhile hc

theorem dropFinalDots_of_getLast? {cs : List Char} (h : cs.getLast? ≠ some '.')
    : dropFinalDots cs = cs := by
  refine dropRightWhile_of_getLast? fun c hc => ?_
  have hcd : c ≠ '.' := fun dot => h (dot ▸ hc)
  simpa using hcd

theorem trim_of_ends {cs : List Char} (first : ∀ c, cs.head? = some c → isBlank c = false)
    (last : ∀ c, cs.getLast? = some c → isBlank c = false)
    : trim cs = cs := by
  have hdrop : cs.dropWhile isBlank = cs := by
    cases cs with
    | nil => rfl
    | cons c rest => simp [first c rfl]
  rw [trim, hdrop]
  exact dropRightWhile_of_getLast? last

theorem prefix_dropRightWhile (p : Char → Bool) (cs : List Char)
    : dropRightWhile p cs <+: cs := by
  have h := List.dropWhile_suffix p (l := cs.reverse)
  simpa [dropRightWhile] using List.reverse_prefix.2 h

theorem infix_trim (cs : List Char) : trim cs <:+: cs :=
  (prefix_dropRightWhile _ _).isInfix.trans (List.dropWhile_suffix _).isInfix

theorem isBlank_head?_trim {cs : List Char} {c : Char} (h : (trim cs).head? = some c)
    : isBlank c = false := by
  have hfront : trim cs <+: cs.dropWhile isBlank := prefix_dropRightWhile _ _
  have hhead : (cs.dropWhile isBlank).head? = some c := by
    obtain ⟨rest, hrest⟩ := hfront
    rw [← hrest, List.head?_append, h]
    rfl
  have := List.head?_dropWhile_not isBlank cs
  rw [hhead] at this
  simpa using this

theorem ascii_dot {cs : List Char} (h : IsAscii cs) : IsAscii (cs ++ ['.']) := by
  intro c hc
  rcases List.mem_append.1 hc with hc | hc
  · exact h c hc
  · rw [List.mem_singleton.1 hc]
    decide

theorem canonical_ascii {cs : List Char} (h : IsAscii cs) : IsAscii (canonical cs) := by
  have htrim : IsAscii (trim cs) := fun c hc => h c ((infix_trim cs).subset hc)
  refine ascii_dot fun c hc => ?_
  rw [lower_of_ascii htrim] at hc
  obtain ⟨d, hd, rfl⟩ := List.mem_map.1 ((prefix_dropRightWhile _ _).subset hc)
  exact toLower_ascii (htrim d hd)

theorem dropFinalDots_canonical (cs : List Char)
    : dropFinalDots (canonical cs) ++ ['.'] = canonical cs := by
  have hdrop : dropFinalDots (dropFinalDots (lower (trim cs)))
      = dropFinalDots (lower (trim cs)) :=
    dropRightWhile_dropRightWhile _ _
  rw [canonical, dropFinalDots_concat, hdrop]

/-- Canonical ASCII text is its own canonical text: it is trimmed, in lower case, and ends
with one dot.
-/
theorem canonical_canonical {cs : List Char} (h : IsAscii cs)
    : canonical (canonical cs) = canonical cs := by
  have htrim : IsAscii (trim cs) := fun c hc => h c ((infix_trim cs).subset hc)
  have hbody : canonical cs = dropFinalDots ((trim cs).map Char.toLower) ++ ['.'] := by
    rw [canonical, lower_of_ascii htrim]
  generalize hx : dropFinalDots ((trim cs).map Char.toLower) = body at hbody
  have hfront : body <+: (trim cs).map Char.toLower := hx ▸ prefix_dropRightWhile _ _
  have hlast : dropFinalDots body = body := hx ▸ dropRightWhile_dropRightWhile _ _
  have hfirst : ∀ c, (body ++ ['.']).head? = some c → isBlank c = false := by
    intro c hc
    cases body with
    | nil => simp at hc; subst hc; decide
    | cons d rest =>
        simp only [List.cons_append, List.head?_cons, Option.some.injEq] at hc
        subst hc
        obtain ⟨more, hmore⟩ := hfront
        cases ht : trim cs with
        | nil => simp [ht] at hmore
        | cons e tail =>
            simp only [ht, List.map_cons, List.cons_append, List.cons.injEq] at hmore
            rw [hmore.1, isBlank_toLower (htrim e (by simp [ht]))]
            exact isBlank_head?_trim (by rw [ht]; rfl)
  have hlower : lower (body ++ ['.']) = body ++ ['.'] := by
    rw [lower_of_ascii (hbody ▸ canonical_ascii h)]
    refine (List.map_congr_left fun c hc => ?_).trans (List.map_id _)
    rcases List.mem_append.1 hc with hc | hc
    · obtain ⟨d, hd, rfl⟩ := List.mem_map.1 (hfront.subset hc)
      exact toLower_toLower (htrim d hd)
    · rw [List.mem_singleton] at hc
      subst hc
      decide
  rw [hbody, canonical, trim_of_ends hfirst (by simp; decide), hlower, dropFinalDots_concat,
    hlast]

end Text

end NameserverAudit
