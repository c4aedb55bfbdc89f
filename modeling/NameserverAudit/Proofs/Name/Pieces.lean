import NameserverAudit.Proofs.Name.Within
import NameserverAudit.Proofs.Text.Spelling

/-! Names and the pieces of their texts. Main statement: a plain text ends with the text of a name,
on a boundary of labels, just if that has no escaped character and the name contains the one that
the plain text writes.
-/

namespace NameserverAudit

open Text DomainName

-----------------------------------------------------------------------------------------
-- Pieces of a canonical text
-----------------------------------------------------------------------------------------

/-- The text of pieces, each with a dot behind it. -/
def dotted (pieces : List (List Char)) : String :=
  String.ofList (pieces.flatMap (· ++ ['.']))

/-- The pieces of the canonical text of a domain. -/
def piecesOf (domain : String) : List (List Char) :=
  splitOn '.' (dropFinalDots (canonicalName domain).toList)

theorem piecesOf_ne_nil (domain : String) : piecesOf domain ≠ [] :=
  splitOn_ne_nil _ _

theorem dotted_piecesOf (domain : String) : dotted (piecesOf domain) = canonicalName domain := by
  rw [dotted, piecesOf, flatMap_splitOn, canonicalName, String.toList_ofList,
    dropFinalDots_canonical]

theorem dot_not_mem_piecesOf {domain : String} : ∀ piece ∈ piecesOf domain, '.' ∉ piece :=
  fun _ => not_mem_of_mem_splitOn

/-- The pieces of ASCII text are its own, without the blanks around it and the dots at its end,
in lower case.
-/
theorem piecesOf_ascii {domain : String} (h : IsAscii domain.toList)
    : piecesOf domain
      = (splitOn '.' (dropFinalDots (strip domain).toList)).map (List.map Char.toLower) := by
  have trimmed : IsAscii (trim domain.toList) := fun c hc => h c ((infix_trim _).subset hc)
  have body : dropFinalDots (canonical domain.toList)
      = (dropFinalDots (trim domain.toList)).map Char.toLower := by
    refine List.append_cancel_right ((dropFinalDots_canonical _).trans ?_)
    rw [canonical, lower_of_ascii trimmed, dropFinalDots_map_toLower]
  rw [piecesOf, canonicalName, String.toList_ofList, body,
    splitOn_map (toLower_eq_iff '.' (by decide) (by decide)), strip, String.toList_ofList]

/-- Of two ends of a list of pieces the one with fewer pieces has the shorter text. -/
theorem length_dotted_le_iff {all front back : List (List Char)} (hfront : front <:+ all)
    (hback : back <:+ all)
    : (dotted front).length ≤ (dotted back).length ↔ front.length ≤ back.length := by
  rcases List.suffix_or_suffix_of_suffix hfront hback with ⟨more, rfl⟩ | ⟨more, rfl⟩
  · simp [dotted]
  · cases more with
    | nil => simp
    | cons piece more =>
        simp only [dotted, String.length_ofList, List.flatMap_append, List.length_append,
          List.flatMap_cons, List.length_cons]
        omega

theorem eq_singleton_of_suffix {α : Type} {x : α} {back : List α} (hne : back ≠ [])
    (h : back <:+ [x])
    : back = [x] := by
  rw [List.suffix_cons_iff, List.suffix_nil] at h
  exact h.resolve_right hne

-----------------------------------------------------------------------------------------
-- Ends of a text
-----------------------------------------------------------------------------------------

/-- One text ends with another, on a boundary of labels. -/
def EndsOn (text zone : String) : Prop :=
  zone = text ∨ '.' :: zone.toList <:+ text.toList

/-- An end that starts with a dot does not reach into what has no dots, by induction on that. -/
theorem dot_cons_suffix_append_iff {front cs zone : List Char} (dotless : '.' ∉ front)
    : '.' :: zone <:+ front ++ cs ↔ '.' :: zone <:+ cs := by
  induction front with
  | nil => rfl
  | cons c front ih =>
      obtain ⟨hc, hfront⟩ := not_or.1 (mt List.mem_cons.2 dotless)
      rw [List.cons_append, List.suffix_cons_iff, ih hfront, List.cons.injEq]
      exact or_iff_right fun h => hc h.1

theorem endsOn_dotted_cons_iff {first : List Char} {rest : List (List Char)} {zone : String}
    (dotless : '.' ∉ first)
    : EndsOn (dotted (first :: rest)) zone
      ↔ zone = dotted (first :: rest) ∨ EndsOn (dotted rest) zone := by
  have toList : (dotted (first :: rest)).toList = first ++ '.' :: (dotted rest).toList := by
    simp [dotted]
  rw [EndsOn, EndsOn, toList, dot_cons_suffix_append_iff dotless, List.suffix_cons_iff,
    List.cons.injEq, and_iff_right rfl, String.toList_inj]

/-- The ends of a text on boundaries of labels are those of its pieces. By induction on them. -/
theorem endsOn_dotted_iff {pieces : List (List Char)} {zone : String}
    (dotless : ∀ piece ∈ pieces, '.' ∉ piece) (hne : zone ≠ "")
    : EndsOn (dotted pieces) zone ↔ ∃ back, back ≠ [] ∧ back <:+ pieces ∧ zone = dotted back := by
  induction pieces with
  | nil =>
      constructor
      · rintro (h | h)
        · exact absurd h hne
        · simp [dotted] at h
      · rintro ⟨back, hback, hsuffix, -⟩
        exact absurd (List.suffix_nil.1 hsuffix) hback
  | cons first rest ih =>
      rw [endsOn_dotted_cons_iff (dotless first List.mem_cons_self),
        ih fun piece hp => dotless piece (List.mem_cons_of_mem first hp)]
      constructor
      · rintro (rfl | ⟨back, hback, hsuffix, hzone⟩)
        · exact ⟨first :: rest, List.cons_ne_nil _ _, List.suffix_refl _, rfl⟩
        · exact ⟨back, hback, hsuffix.trans (List.suffix_cons _ _), hzone⟩
      · rintro ⟨back, hback, hsuffix, hzone⟩
        rcases List.suffix_cons_iff.1 hsuffix with rfl | hsuffix
        · exact .inl hzone
        · exact .inr ⟨back, hback, hsuffix, hzone⟩

-----------------------------------------------------------------------------------------
-- Names that are written by plain pieces
-----------------------------------------------------------------------------------------

namespace DomainName

theorem bytesOf_map_toLower {piece : List Char} (h : IsAscii piece)
    : bytesOf (piece.map Char.toLower) = (bytesOf piece).map foldByte := by
  rw [bytesOf, bytesOf, List.map_map, List.map_map]
  refine List.map_congr_left fun c hc => ?_
  exact forall_ascii
    (P := fun c => UInt8.ofNat c.toLower.toNat = foldByte (UInt8.ofNat c.toNat))
    (by decide) (h c hc)

/-- The ASCII text of bytes. -/
def charsOf (label : Label) : List Char :=
  label.map fun b => Char.ofNat b.toNat

theorem charsOf_bytesOf {piece : List Char} (h : IsAscii piece)
    : charsOf (bytesOf piece) = piece := by
  rw [charsOf, bytesOf, List.map_map]
  refine (List.map_congr_left fun c hc => ?_).trans (List.map_id piece)
  exact forall_ascii (P := fun c => Char.ofNat (UInt8.ofNat c.toNat).toNat = c)
    (by decide) (h c hc)

/-- Plain pieces are an end of others if their bytes are. -/
theorem suffix_of_bytesOf {front back : List (List Char)} (hfront : ∀ p ∈ front, IsAscii p)
    (hback : ∀ p ∈ back, IsAscii p) (h : back.map bytesOf <:+ front.map bytesOf)
    : back <:+ front := by
  have chars (pieces : List (List Char)) (ascii : ∀ p ∈ pieces, IsAscii p)
      : (pieces.map bytesOf).map charsOf = pieces := by
    rw [List.map_map]
    exact (List.map_congr_left fun p hp => charsOf_bytesOf (ascii p hp)).trans (List.map_id _)
  have := h.map charsOf
  rwa [chars front hfront, chars back hback] at this

/-- A name with the text of plain pieces has their bytes as its labels. -/
theorem folded_of_dotted {m : DomainName} {back : List (List Char)} (hne : back ≠ [])
    (h : ∀ piece ∈ back, IsPlain piece ∧ '.' ∉ piece) (hm : m.canonicalText = dotted back)
    (notRoot : m.canonicalText ≠ ".")
    : m.folded = back.map bytesOf := by
  have read := ofText_canonicalText m
  rw [hm] at read
  rcases labels_of_pieces hne h read with ⟨rfl, -⟩ | ⟨-, hlabels⟩
  · exact absurd hm notRoot
  · exact hlabels

/-- The sign for the origin stands with a backslash in the text of a name. -/
theorem canonicalText_ne_origin (m : DomainName) : m.canonicalText ≠ "@." := by
  intro h
  have read := ofText_canonicalText m
  rw [h] at read
  have lowered : m.lowered = ⟨[[0x40]], by decide⟩ := (Except.ok.inj read).symm
  have same : m.lowered.canonicalText = m.canonicalText :=
    canonicalText_eq_iff.2 (same_iff.2 (folded_lowered m))
  rw [h, lowered] at same
  exact absurd same (by decide)

theorem canonicalText_ascii (m : DomainName) : IsAscii m.canonicalText.toList := by
  rw [canonicalText, canonicalName, text, String.toList_ofList, String.toList_ofList]
  exact canonical_ascii fun c hc => (chars_printable hc).1

theorem canonicalText_ne_empty (m : DomainName) : m.canonicalText ≠ "" := by
  intro h
  have := congrArg String.toList h
  simp [canonicalText, canonicalName, canonical] at this

section Plain

variable {domain : String} {n m m' : DomainName} (plain : IsPlain domain.toList)

include plain

theorem piecesOf_plain : ∀ piece ∈ piecesOf domain, IsPlain piece ∧ '.' ∉ piece := by
  intro piece hpiece
  refine ⟨fun c hc => ?_, dot_not_mem_piecesOf piece hpiece⟩
  rw [piecesOf] at hpiece
  have hmem := (prefix_dropRightWhile _ _).subset (mem_of_mem_splitOn hpiece hc)
  exact (canonicalName_plain plain).1 c hmem

/-- A name whose text ends plain text has the bytes of the last pieces as its labels. -/
theorem exists_pieces_of_endsOn (notRoot : m.canonicalText ≠ ".")
    (ends : EndsOn (canonicalName domain) m.canonicalText)
    : ∃ back,
        back ≠ []
        ∧ back <:+ piecesOf domain
        ∧ m.canonicalText = dotted back
        ∧ m.folded = back.map bytesOf := by
  rw [← dotted_piecesOf,
    endsOn_dotted_iff dot_not_mem_piecesOf (canonicalText_ne_empty m)] at ends
  obtain ⟨back, hne, hsuffix, htext⟩ := ends
  have hback : ∀ piece ∈ back, IsPlain piece ∧ '.' ∉ piece :=
    fun piece hp => piecesOf_plain plain piece (hsuffix.subset hp)
  exact ⟨back, hne, hsuffix, htext, folded_of_dotted hne hback htext notRoot⟩

/-- A text that ends plain text has no escaped character. -/
theorem unescaped_of_endsOn (notRoot : m.canonicalText ≠ ".")
    (ends : EndsOn (canonicalName domain) m.canonicalText)
    : '\\' ∉ m.canonicalText.toList := by
  obtain ⟨back, -, hsuffix, htext, -⟩ := exists_pieces_of_endsOn plain notRoot ends
  rw [htext, dotted, String.toList_ofList]
  intro escaped
  obtain ⟨piece, hpiece, hmem⟩ := List.mem_flatMap.1 escaped
  rcases List.mem_append.1 hmem with hmem | hmem
  · exact ((piecesOf_plain plain piece (hsuffix.subset hpiece)).1 _ hmem).2 rfl
  · exact absurd (List.mem_singleton.1 hmem) (by decide)

/-- Of two names whose texts end plain text the one with fewer labels has the shorter text. -/
theorem length_le_iff_of_endsOn (notRoot : m.canonicalText ≠ ".")
    (notRoot' : m'.canonicalText ≠ ".") (ends : EndsOn (canonicalName domain) m.canonicalText)
    (ends' : EndsOn (canonicalName domain) m'.canonicalText)
    : m.canonicalText.length ≤ m'.canonicalText.length
      ↔ m.labels.length ≤ m'.labels.length := by
  obtain ⟨back, -, hsuffix, htext, hm⟩ := exists_pieces_of_endsOn plain notRoot ends
  obtain ⟨back', -, hsuffix', htext', hm'⟩ := exists_pieces_of_endsOn plain notRoot' ends'
  have labels : m.labels.length = back.length := by
    simpa [folded] using congrArg List.length hm
  have labels' : m'.labels.length = back'.length := by
    simpa [folded] using congrArg List.length hm'
  rw [htext, htext', length_dotted_le_iff hsuffix hsuffix', labels, labels']

variable (hn : ofText (strip domain) = .ok n)

include hn

/-- The name that plain text writes has the bytes of its pieces as its labels, in lower case. -/
theorem folded_of_plain
    : n = root ∧ (piecesOf domain = [[]] ∨ piecesOf domain = [['@']])
      ∨ n.folded = (piecesOf domain).map bytesOf := by
  have trimmed : IsPlain (trim domain.toList) := fun c hc =>
    plain c ((infix_trim _).subset hc)
  rw [piecesOf_ascii fun c hc => (plain c hc).1, strip, String.toList_ofList]
  rcases labels_of_plain trimmed hn with ⟨rfl, h | h | h⟩ | hlabels
  · rw [h]
    exact .inl ⟨rfl, .inl (by decide)⟩
  · rw [h]
    exact .inl ⟨rfl, .inr (by decide)⟩
  · rw [h]
    exact .inl ⟨rfl, .inl (by decide)⟩
  · right
    rw [folded, hlabels, List.map_map, List.map_map]
    refine List.map_congr_left fun piece hpiece => ?_
    refine (bytesOf_map_toLower fun c hc => ?_).symm
    exact (trimmed c ((prefix_dropRightWhile _ _).subset (mem_of_mem_splitOn hpiece hc))).1

/-- A name whose text ends plain text contains the one that the plain text writes. -/
theorem isWithin_of_endsOn (notRoot : m.canonicalText ≠ ".")
    (ends : EndsOn (canonicalName domain) m.canonicalText)
    : n.isWithin m = true := by
  obtain ⟨back, hne, hsuffix, htext, hm⟩ := exists_pieces_of_endsOn plain notRoot ends
  have whole {piece : List Char} (h : piecesOf domain = [piece]) : back = [piece] :=
    eq_singleton_of_suffix hne (h ▸ hsuffix)
  rw [isWithin_iff]
  rcases folded_of_plain plain hn with ⟨-, h | h⟩ | h
  · rw [whole h] at htext
    exact absurd htext notRoot
  · rw [whole h] at htext
    exact absurd htext (canonicalText_ne_origin m)
  · rw [hm, h]
    exact hsuffix.map bytesOf

/-- A name without an escaped character in its text, but with labels, ends the plain text of each
name that it contains.
-/
theorem endsOn_of_isWithin (notRoot : m.canonicalText ≠ ".")
    (unescaped : '\\' ∉ m.canonicalText.toList) (within : n.isWithin m = true)
    : EndsOn (canonicalName domain) m.canonicalText := by
  have plainText : IsPlain m.canonicalText.toList :=
    fun c hc => ⟨canonicalText_ascii m c hc, fun h => unescaped (h ▸ hc)⟩
  have hpieces := piecesOf_plain plainText
  have hne := piecesOf_ne_nil m.canonicalText
  have htext : m.canonicalText = dotted (piecesOf m.canonicalText) := by
    rw [dotted_piecesOf, canonicalName_canonicalText]
  have hm := folded_of_dotted hne hpieces htext notRoot
  rw [isWithin_iff, hm] at within
  rcases folded_of_plain plain hn with ⟨rfl, -⟩ | h
  · exact absurd (List.map_eq_nil_iff.1 (List.suffix_nil.1 within)) hne
  · rw [h] at within
    rw [← dotted_piecesOf domain,
      endsOn_dotted_iff dot_not_mem_piecesOf (canonicalText_ne_empty m)]
    refine ⟨piecesOf m.canonicalText, hne, suffix_of_bytesOf ?_ ?_ within, htext⟩
    · exact fun piece hp c hc => ((piecesOf_plain plain piece hp).1 c hc).1
    · exact fun piece hp c hc => ((hpieces piece hp).1 c hc).1

/-- Plain text ends with the text of a name just if that has no escaped character and the name
contains the one that the plain text writes.
-/
theorem endsOn_iff_isWithin (notRoot : m.canonicalText ≠ ".")
    : EndsOn (canonicalName domain) m.canonicalText
      ↔ '\\' ∉ m.canonicalText.toList ∧ n.isWithin m = true :=
  ⟨fun ends => ⟨unescaped_of_endsOn plain notRoot ends, isWithin_of_endsOn plain hn notRoot ends⟩,
    fun h => endsOn_of_isWithin plain hn notRoot h.1 h.2⟩

end Plain

end DomainName

end NameserverAudit
