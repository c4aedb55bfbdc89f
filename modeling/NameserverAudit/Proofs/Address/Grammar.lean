import NameserverAudit.Proofs.Address.Digits

/-! A grammar of address literals, which says what may be written without saying how it is read.
Main statement: the addresses that are read are exactly those that the grammar writes.
-/

namespace NameserverAudit

open Text

namespace Ipv6

-----------------------------------------------------------------------------------------
-- Pieces between colons
-----------------------------------------------------------------------------------------

/-- The texts write the groups, one each; the last text may be an address of version 4, which
stands for two groups.
-/
inductive WritesGroups : List (List Char) → List UInt16 → Prop
  | nil : WritesGroups [] []
  | dotted (a : Ipv4) : WritesGroups [a.chars] (ofIpv4 a)
  | cons {cs texts g groups} (head : WritesGroup cs g) (tail : WritesGroups texts groups)
    : WritesGroups (cs :: texts) (g :: groups)

/-- The texts between colons write the pieces: groups, or nothing where a text is empty. -/
inductive WritesPieces : List (List Char) → List (Option UInt16) → Prop
  | nil : WritesPieces [] []
  | dotted (a : Ipv4) : WritesPieces [a.chars] ((ofIpv4 a).map some)
  | gap {texts pieces} (tail : WritesPieces texts pieces)
    : WritesPieces ([] :: texts) (none :: pieces)
  | group {cs texts g pieces} (head : WritesGroup cs g) (tail : WritesPieces texts pieces)
    : WritesPieces (cs :: texts) (some g :: pieces)

/-- A piece that is read is written before others. -/
theorem WritesPieces.of_piece {cs : List Char} {texts : List (List Char)} {piece : Option UInt16}
    {pieces : List (Option UInt16)} (head : piece? cs = some piece)
    (tail : WritesPieces texts pieces)
    : WritesPieces (cs :: texts) (piece :: pieces) := by
  unfold piece? at head
  split at head
  · next empty =>
    obtain rfl := List.isEmpty_iff.1 empty
    obtain rfl := Option.some.inj head
    exact .gap tail
  · obtain ⟨g, hg, rfl⟩ := Option.map_eq_some_iff.1 head
    exact .group (group?_eq_some_iff.1 hg) tail

/-- The pieces of texts, read one text after the other. -/
def readPieces? : List (List Char) → Option (List (Option UInt16))
  | [] => some []
  | [last] =>
      if last.contains '.' then do
        let a ← Ipv4.ofChars? last
        return (ofIpv4 a).map some
      else do
        let piece ← piece? last
        return [piece]
  | cs :: rest => do
      let piece ← piece? cs
      let pieces ← readPieces? rest
      return piece :: pieces

/-- The pieces of a text are read from its texts between colons, by induction on those before the
last.
-/
theorem pieces?_eq_readPieces? (cs : List Char) : pieces? cs = readPieces? (splitOn ':' cs) := by
  obtain ⟨init, last, hsplit, -⟩ := exists_splitOn ':' cs
  simp only [pieces?, hsplit, List.getLast?_concat, List.dropLast_concat]
  clear hsplit
  induction init with
  | nil => cases h : last.contains '.' <;> simp_all [readPieces?]
  | cons first init ih =>
      have step : readPieces? (first :: (init ++ [last])) = (do
          let piece ← piece? first
          let pieces ← readPieces? (init ++ [last])
          return piece :: pieces) := by
        cases init <;> rfl
      rw [List.cons_append, step, ← ih]
      cases last.contains '.' <;> cases hfirst : piece? first <;> simp [hfirst, Option.bind_assoc]

/-- Pieces are read from the texts that write them. -/
theorem readPieces?_eq_some_iff {texts : List (List Char)} {pieces : List (Option UInt16)}
    : readPieces? texts = some pieces ↔ WritesPieces texts pieces := by
  fun_induction readPieces? texts generalizing pieces with
  | case1 =>
      constructor
      · intro h
        obtain rfl := Option.some.inj h
        exact .nil
      · rintro ⟨⟩
        rfl
  | case2 last dot =>
      have dot : '.' ∈ last := by simpa using dot
      constructor
      · intro h
        obtain ⟨a, ha, same⟩ := Option.bind_eq_some_iff.1 h
        obtain rfl := Ipv4.ofChars?_eq_some_iff.1 ha
        obtain rfl := Option.some.inj same
        exact .dotted a
      · intro h
        cases h with
        | dotted a => simp [Ipv4.ofChars?_chars]
        | gap tail => cases dot
        | group head tail => exact absurd rfl (head.no_sign _ dot).2.1
  | case3 last plain =>
      have plain : '.' ∉ last := by simpa using plain
      constructor
      · intro h
        obtain ⟨piece, hpiece, same⟩ := Option.bind_eq_some_iff.1 h
        obtain rfl := Option.some.inj same
        exact .of_piece hpiece .nil
      · intro h
        cases h with
        | dotted a => exact absurd a.dot_mem_chars plain
        | gap tail => cases tail; rfl
        | group head tail => cases tail; simp [head.piece?_eq]
  | case4 cs rest alone ih =>
      constructor
      · intro h
        obtain ⟨piece, hpiece, later⟩ := Option.bind_eq_some_iff.1 h
        obtain ⟨pieces, hpieces, same⟩ := Option.bind_eq_some_iff.1 later
        obtain rfl := Option.some.inj same
        exact .of_piece hpiece (ih.1 hpieces)
      · intro h
        cases h with
        | dotted a => exact absurd rfl alone
        | gap tail => simp [piece?, ih.2 tail]
        | group head tail => simp [head.piece?_eq, ih.2 tail]

theorem pieces?_eq_some_iff {cs : List Char} {pieces : List (Option UInt16)}
    : pieces? cs = some pieces ↔ WritesPieces (splitOn ':' cs) pieces := by
  rw [pieces?_eq_readPieces?, readPieces?_eq_some_iff]

-----------------------------------------------------------------------------------------
-- Pieces that stand for an address
-----------------------------------------------------------------------------------------

theorem side_of_ne_nil {groups : List UInt16} (h : groups ≠ [])
    : side groups = groups.map some := by
  cases groups with
  | nil => exact absurd rfl h
  | cons g rest => rfl

theorem eq_map_some_of_mapM {pieces : List (Option UInt16)} {groups : List UInt16}
    (h : pieces.mapM id = some groups)
    : pieces = groups.map some := by
  rw [← List.forall₂_eq_eq_eq, List.forall₂_map_right_iff]
  exact mapM_eq_some_iff.1 h

theorem eq_side_of_low? {pieces : List (Option UInt16)} {low : List UInt16}
    (h : low? pieces = some low)
    : pieces = side low := by
  unfold low? at h
  split at h
  · cases h
  · obtain rfl := Option.some.inj h
    rfl
  · next nonempty _ =>
    obtain rfl := eq_map_some_of_mapM h
    rw [side_of_ne_nil]
    rintro rfl
    exact nonempty rfl

theorem exists_replicate_of_fill? {high low groups : List UInt16}
    (h : fill? high low = some groups)
    : ∃ n, 1 ≤ n ∧ groups = high ++ List.replicate n 0 ++ low := by
  unfold fill? at h
  split at h
  · exact ⟨_, by omega, (Option.some.inj h).symm⟩
  · cases h

/-- Pieces that stand for groups are these groups, or those on both sides of a gap that stands for
zero groups.
-/
theorem exists_of_assemble? {pieces : List (Option UInt16)} {groups : List UInt16}
    (h : assemble? pieces = some groups)
    : pieces = groups.map some
      ∨ ∃ high low n,
          pieces = side high ++ none :: side low
          ∧ 1 ≤ n ∧ groups = high ++ List.replicate n 0 ++ low := by
  unfold assemble? at h
  split at h
  · next rest =>
    obtain ⟨low, hlow, hfill⟩ := Option.bind_eq_some_iff.1 h
    obtain rfl := eq_side_of_low? hlow
    obtain ⟨n, hn, hgroups⟩ := exists_replicate_of_fill? hfill
    exact .inr ⟨[], low, n, rfl, hn, hgroups⟩
  · cases h
  · next not_gaps not_gap =>
    dsimp only at h
    have behind := drop_length_takeWhile Option.isSome pieces
    have parts := List.takeWhile_append_dropWhile (p := Option.isSome) (l := pieces)
    rw [← behind] at parts
    split at h
    · next hdrop =>
      rw [hdrop, List.append_nil] at parts
      rw [parts] at h
      exact .inl (eq_map_some_of_mapM h)
    · next piece rest hdrop =>
      split at h
      · next high low hhigh hlow =>
        obtain ⟨n, hn, hgroups⟩ := exists_replicate_of_fill? h
        have gap : piece = none := by
          have := List.head?_dropWhile_not Option.isSome pieces
          rw [← behind, hdrop] at this
          simpa using this
        rw [hdrop, gap, eq_side_of_low? hlow, eq_map_some_of_mapM hhigh] at parts
        have written : high ≠ [] := by
          rintro rfl
          exact not_gap _ parts.symm
        refine .inr ⟨high, low, n, ?_, hn, hgroups⟩
        rw [side_of_ne_nil written, parts]
      · cases h

-----------------------------------------------------------------------------------------
-- Texts of version 6
-----------------------------------------------------------------------------------------

/-- The characters write the address: all its groups with colons between them, or two colons for
some zero groups and the others on both sides of them.
-/
inductive Writes : List Char → Ipv6 → Prop
  | full {texts a} (groups : WritesGroups texts a.groups)
    : Writes (List.intercalate [':'] texts) a
  | gap {highs lows high low n a} (front : List.Forall₂ WritesGroup highs high)
      (back : WritesGroups lows low) (some_zeros : 1 ≤ n)
      (groups : a.groups = high ++ List.replicate n 0 ++ low)
    : Writes (List.intercalate [':'] highs ++ [':', ':'] ++ List.intercalate [':'] lows) a

/-- No text of groups has a sign in it that stands around groups or addresses, by induction on
them.
-/
theorem WritesGroups.no_sign {texts : List (List Char)} {groups : List UInt16}
    (h : WritesGroups texts groups)
    : ∀ text ∈ texts, ∀ c ∈ text, c ≠ ':' ∧ c ≠ '/' ∧ c ≠ '%' := by
  induction h with
  | nil => simp
  | dotted a =>
      intro text hmem c hc
      rw [List.mem_singleton.1 hmem] at hc
      rcases Ipv4.mem_chars hc with digit | rfl
      · refine ⟨?_, ?_, ?_⟩
        all_goals
          rintro rfl
          exact absurd digit (by decide)
      · decide
  | cons head tail ih =>
      intro text hmem c hc
      rcases List.mem_cons.1 hmem with rfl | hmem
      · have := head.no_sign c hc
        exact ⟨this.1, this.2.2⟩
      · exact ih text hmem c hc

theorem WritesGroups.no_colon {texts : List (List Char)} {groups : List UInt16}
    (h : WritesGroups texts groups)
    : ∀ text ∈ texts, ':' ∉ text :=
  fun text hmem colon => (h.no_sign text hmem ':' colon).1 rfl

/-- An address of version 4 makes up for at most one text. -/
theorem WritesGroups.length_le {texts : List (List Char)} {groups : List UInt16}
    (h : WritesGroups texts groups)
    : groups.length ≤ texts.length + 1 := by
  induction h with
  | nil => simp
  | dotted a =>
      match hbytes : a.bytes, a.length_eq with
      | [_, _, _, _], _ => simp [ofIpv4, hbytes]
  | cons head tail ih => simpa using ih

/-- There are texts just if there are groups. -/
theorem WritesGroups.eq_nil_iff {texts : List (List Char)} {groups : List UInt16}
    (h : WritesGroups texts groups)
    : texts = [] ↔ groups = [] := by
  cases h with
  | nil => simp
  | dotted a =>
      match hbytes : a.bytes, a.length_eq with
      | [_, _, _, _], _ => simp [ofIpv4, hbytes]
  | cons head tail => simp

/-- Groups in full are such as may be written behind a gap too. -/
theorem writesGroups_of_forall₂ {texts : List (List Char)} {groups : List UInt16}
    (h : List.Forall₂ WritesGroup texts groups)
    : WritesGroups texts groups := by
  induction h with
  | nil => exact .nil
  | cons head tail ih => exact .cons head ih

theorem WritesGroups.pieces {texts : List (List Char)} {groups : List UInt16}
    (h : WritesGroups texts groups)
    : WritesPieces texts (groups.map some) := by
  induction h with
  | nil => exact .nil
  | dotted a => exact .dotted a
  | cons head tail ih => exact .group head ih

/-- The texts on one side of a gap, one of which is empty if there are none. -/
theorem WritesGroups.pieces_side {texts : List (List Char)} {groups : List UInt16}
    (h : WritesGroups texts groups)
    : WritesPieces (splitOn ':' (List.intercalate [':'] texts)) (side groups) := by
  by_cases empty : texts = []
  · rw [empty, h.eq_nil_iff.1 empty]
    exact .gap .nil
  · rw [splitOn_intercalate empty h.no_colon, side_of_ne_nil (mt h.eq_nil_iff.2 empty)]
    exact h.pieces

theorem WritesPieces.append {front back : List (List Char)} {high : List UInt16}
    {pieces : List (Option UInt16)} (h : List.Forall₂ WritesGroup front high)
    (hback : WritesPieces back pieces)
    : WritesPieces (front ++ back) (high.map some ++ pieces) := by
  induction h with
  | nil => exact hback
  | cons head tail ih => exact .group head ih

/-- Texts that write groups and nothing else, by induction on them. -/
theorem WritesPieces.groups {texts : List (List Char)} {groups : List UInt16}
    (h : WritesPieces texts (groups.map some))
    : WritesGroups texts groups := by
  generalize hpieces : groups.map some = pieces at h
  induction h generalizing groups with
  | nil =>
      obtain rfl := List.map_eq_nil_iff.1 hpieces
      exact .nil
  | dotted a =>
      obtain rfl := (Option.some_injective _).list_map hpieces
      exact .dotted a
  | gap tail ih =>
      have : none ∈ groups.map some := hpieces ▸ List.mem_cons_self
      simp at this
  | group head tail ih =>
      obtain ⟨g, rest, rfl, same, hrest⟩ := List.map_eq_cons_iff.1 hpieces
      obtain rfl := Option.some.inj same
      exact .cons head (ih hrest)

/-- Texts that write groups and a gap behind them, by induction on the groups. -/
theorem WritesPieces.split {texts : List (List Char)} {high : List UInt16}
    {pieces : List (Option UInt16)}
    (h : WritesPieces texts (high.map some ++ none :: pieces))
    : ∃ highs lows,
        texts = highs ++ [] :: lows
        ∧ List.Forall₂ WritesGroup highs high ∧ WritesPieces lows pieces := by
  generalize hall : high.map some ++ none :: pieces = all at h
  induction h generalizing high with
  | nil => simp at hall
  | dotted a =>
      have : none ∈ (ofIpv4 a).map some := by simp [← hall]
      simp at this
  | @gap texts _ tail ih =>
      cases high with
      | nil =>
          obtain rfl := (List.cons.inj hall).2
          exact ⟨[], texts, rfl, .nil, tail⟩
      | cons g rest => cases (List.cons.inj hall).1
  | @group cs _ _ _ head tail ih =>
      cases high with
      | nil => cases (List.cons.inj hall).1
      | cons g rest =>
          obtain ⟨same, hrest⟩ := List.cons.inj hall
          obtain rfl := Option.some.inj same
          obtain ⟨highs, lows, rfl, front, back⟩ := ih hrest
          exact ⟨cs :: highs, lows, rfl, .cons head front, back⟩

/-- A gap is written by nothing. -/
theorem WritesPieces.of_gap {texts : List (List Char)} {pieces : List (Option UInt16)}
    (h : WritesPieces texts (none :: pieces))
    : ∃ lows, texts = [] :: lows ∧ WritesPieces lows pieces := by
  have split : WritesPieces texts (([] : List UInt16).map some ++ none :: pieces) := h
  obtain ⟨highs, lows, rfl, front, back⟩ := split.split
  cases front
  exact ⟨lows, rfl, back⟩

/-- Texts that write the groups on one side of a gap are the pieces of a text that writes these
groups.
-/
theorem WritesPieces.of_side {texts : List (List Char)} {groups : List UInt16}
    (h : WritesPieces texts (side groups))
    : ∃ lows, WritesGroups lows groups ∧ texts = splitOn ':' (List.intercalate [':'] lows) := by
  by_cases empty : groups = []
  · subst empty
    obtain ⟨lows, rfl, back⟩ := h.of_gap
    have groups : WritesGroups lows [] := WritesPieces.groups back
    obtain rfl := groups.eq_nil_iff.2 rfl
    exact ⟨[], .nil, rfl⟩
  · rw [side_of_ne_nil empty] at h
    have written := mt h.groups.eq_nil_iff.1 empty
    exact ⟨texts, h.groups, (splitOn_intercalate written h.groups.no_colon).symm⟩

/-- Texts that write the groups before a gap are likewise. -/
theorem WritesPieces.split_side {texts : List (List Char)} {high : List UInt16}
    {pieces : List (Option UInt16)}
    (h : WritesPieces texts (side high ++ none :: pieces))
    : ∃ highs lows,
        texts = splitOn ':' (List.intercalate [':'] highs) ++ [] :: lows
        ∧ List.Forall₂ WritesGroup highs high ∧ WritesPieces lows pieces := by
  by_cases empty : high = []
  · subst empty
    obtain ⟨rest, rfl, gap⟩ := h.of_gap
    obtain ⟨lows, rfl, back⟩ := gap.of_gap
    exact ⟨[], lows, rfl, .nil, back⟩
  · rw [side_of_ne_nil empty] at h
    obtain ⟨highs, lows, rfl, front, back⟩ := h.split
    have groups := writesGroups_of_forall₂ front
    rw [← splitOn_intercalate (mt groups.eq_nil_iff.1 empty) groups.no_colon]
    exact ⟨highs, lows, rfl, front, back⟩

/-- The text of an address of version 6 has a colon, and no sign that stands around an address. -/
theorem Writes.signs {cs : List Char} {a : Ipv6} (h : Writes cs a)
    : ':' ∈ cs ∧ ∀ c ∈ cs, c ≠ '/' ∧ c ≠ '%' := by
  have joined {texts : List (List Char)} {groups : List UInt16} (h : WritesGroups texts groups)
      : ∀ c ∈ List.intercalate [':'] texts, c ≠ '/' ∧ c ≠ '%' := by
    intro c hc
    rcases mem_intercalate hc with rfl | ⟨text, hmem, hc⟩
    · decide
    · exact (h.no_sign text hmem c hc).2
  cases h with
  | @full texts _ groups =>
      refine ⟨?_, joined groups⟩
      have several := groups.length_le
      rw [a.length_eq] at several
      match texts, several with
      | _ :: _ :: _, _ => simp [List.intercalate_cons_cons]
  | gap front back some_zeros groups =>
      refine ⟨by simp, fun c hc => ?_⟩
      rcases List.mem_append.1 hc with hc | hc
      · rcases List.mem_append.1 hc with hc | hc
        · exact joined (writesGroups_of_forall₂ front) c hc
        · have : c = ':' := by simpa using hc
          rw [this]
          decide
      · exact joined back c hc

/-- A text whose pieces stand for an address writes it. -/
theorem writes_of_pieces {cs : List Char} {pieces : List (Option UInt16)} {a : Ipv6}
    (h : WritesPieces (splitOn ':' cs) pieces) (read : assemble? pieces = some a.groups)
    : Writes cs a := by
  rcases exists_of_assemble? read with rfl | ⟨high, low, n, rfl, hn, hgroups⟩
  · have same : cs = List.intercalate [':'] (splitOn ':' cs) := by
      apply splitOn_injective ':'
      rw [splitOn_intercalate (splitOn_ne_nil ':' cs) fun _ => not_mem_of_mem_splitOn]
    rw [same]
    exact .full h.groups
  · obtain ⟨highs, rest, hsplit, front, hrest⟩ := h.split_side
    obtain ⟨lows, back, rfl⟩ := hrest.of_side
    have same : cs
        = List.intercalate [':'] highs ++ [':', ':'] ++ List.intercalate [':'] lows := by
      apply splitOn_injective ':'
      rw [hsplit, splitOn_gap]
    rw [same]
    exact .gap front back hn hgroups

theorem pieces_of_writes {cs : List Char} {a : Ipv6} (h : Writes cs a)
    : ∃ pieces, WritesPieces (splitOn ':' cs) pieces ∧ assemble? pieces = some a.groups := by
  cases h with
  | @full texts _ groups =>
      have hne : a.groups ≠ [] := by
        intro empty
        have := a.length_eq
        simp [empty] at this
      rw [splitOn_intercalate (mt groups.eq_nil_iff.1 hne) groups.no_colon]
      exact ⟨_, groups.pieces, assemble?_full hne⟩
  | @gap highs lows high low n _ front back some_zeros groups =>
      have length := a.length_eq
      rw [groups] at length
      refine ⟨side high ++ none :: side low, ?_, ?_⟩
      · rw [splitOn_gap]
        have high_groups := writesGroups_of_forall₂ front
        by_cases empty : high = []
        · rw [empty, high_groups.eq_nil_iff.2 empty]
          exact .gap (.gap back.pieces_side)
        · rw [splitOn_intercalate (mt high_groups.eq_nil_iff.1 empty) high_groups.no_colon,
            side_of_ne_nil empty]
          exact .append front (.gap back.pieces_side)
      · rw [assemble?_gap, fill?_replicate some_zeros length, groups]

/-- An address of version 6 is read from the texts that write it. -/
theorem ofChars?_eq_some_iff {cs : List Char} {a : Ipv6}
    : ofChars? cs = some a ↔ Writes cs a := by
  constructor
  · intro h
    unfold ofChars? at h
    split at h
    · cases h
    · next groups hread =>
      split at h
      · next eight =>
        obtain rfl := Option.some.inj h
        obtain ⟨pieces, hpieces, hgroups⟩ := Option.bind_eq_some_iff.1 hread
        exact writes_of_pieces (pieces?_eq_some_iff.1 hpieces) hgroups
      · cases h
  · intro h
    obtain ⟨pieces, hpieces, hgroups⟩ := pieces_of_writes h
    simp [ofChars?, pieces?_eq_some_iff.2 hpieces, hgroups, a.length_eq]

end Ipv6

-----------------------------------------------------------------------------------------
-- Texts of both versions
-----------------------------------------------------------------------------------------

namespace Address

/-- The characters write the address; only version 6 may have a scope, behind a percent sign. -/
inductive Writes : List Char → Address → Prop
  | v4 (a : Ipv4) : Writes a.chars (.v4 a)
  | v6 {cs a} (plain : Ipv6.Writes cs a) : Writes cs (.v6 a none)
  | v6Scoped {cs a scope} (plain : Ipv6.Writes cs a) (nonempty : scope ≠ [])
      (no_sign : ∀ c ∈ scope, c ≠ '/' ∧ c ≠ '%')
    : Writes (cs ++ '%' :: scope) (.v6 a (some (String.ofList scope)))

/-- An address is read from the texts that write it. -/
theorem ofChars?_eq_some_iff {cs : List Char} {a : Address}
    : ofChars? cs = some a ↔ Writes cs a := by
  constructor
  · intro h
    obtain ⟨b, hb, rfl⟩ | ⟨b, hb, rfl⟩ | ⟨front, scope, b, rfl, hb, nonempty, no_sign, rfl⟩ :=
      ofChars?_cases h
    · obtain rfl := Ipv4.ofChars?_eq_some_iff.1 hb
      exact .v4 b
    · exact .v6 (Ipv6.ofChars?_eq_some_iff.1 hb)
    · exact .v6Scoped (Ipv6.ofChars?_eq_some_iff.1 hb) nonempty no_sign
  · intro h
    cases h with
    | v4 a => exact ofChars?_of_ipv4 a
    | v6 plain =>
        exact ofChars?_of_ipv6 plain.signs.1 plain.signs.2 (Ipv6.ofChars?_eq_some_iff.2 plain)
    | v6Scoped plain nonempty no_sign =>
        exact ofChars?_of_scoped plain.signs.1 plain.signs.2
          (Ipv6.ofChars?_eq_some_iff.2 plain) nonempty no_sign

end Address

end NameserverAudit
