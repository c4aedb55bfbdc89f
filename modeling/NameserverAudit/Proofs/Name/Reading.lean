import NameserverAudit.Exchange.Query
import NameserverAudit.Name.Host
import NameserverAudit.Proofs.Text.Canonical
import NameserverAudit.Proofs.Text.Pieces

/-! Reading the text of a name. The canonical text of every name reads back as that name in
lower case, escapes included, so a name that came in a response can always be asked about.
Text without a backslash reads as its pieces between the dots.
-/

namespace NameserverAudit

-----------------------------------------------------------------------------------------
-- The characters of a name read back
-----------------------------------------------------------------------------------------

namespace DomainName

open Text

/-- The name that a text writes; the root if it writes none. -/
def written (s : String) : DomainName := (ofText s).toOption.getD root

theorem forall_byte {P : UInt8 → Prop} (h : ∀ n < 256, P (UInt8.ofNat n)) (b : UInt8) : P b :=
  UInt8.ofNat_toNat (x := b) ▸ h b.toNat b.toNat_lt

theorem byteText_printable (b : UInt8) {c : Char} (hc : c ∈ byteText b)
    : c.toNat < 0x80 ∧ isBlank c = false := by
  have hall : (byteText b).all (fun c => c.toNat < 0x80 && !isBlank c) = true :=
    forall_byte (P := fun b => (byteText b).all (fun c => c.toNat < 0x80 && !isBlank c) = true)
      (by decide +kernel) b
  simpa using List.all_eq_true.1 hall c hc

theorem toLower_byteText (b : UInt8)
    : (byteText b).map Char.toLower = byteText (foldByte b) :=
  forall_byte (P := fun b => (byteText b).map Char.toLower = byteText (foldByte b))
    (by decide +kernel) b

theorem foldByte_foldByte (b : UInt8) : foldByte (foldByte b) = foldByte b :=
  forall_byte (P := fun b => foldByte (foldByte b) = foldByte b) (by decide +kernel) b

/-- How a byte may be written: as itself, behind a backslash, or by three digits. -/
def Writes (b : UInt8) : List Char → Prop
  | [c] => c ≠ '\\' ∧ c ≠ '.' ∧ Utf8.encodeChar c = [b]
  | [s, c] => s = '\\' ∧ (digit? c).isSome = false ∧ Utf8.encodeChar c = [b]
  | [s, x, y, z] => s = '\\' ∧ (digit? x).isSome = true ∧ byte? x y z = some b
  | _ => False

instance (b : UInt8) (cs : List Char) : Decidable (Writes b cs) := by
  unfold Writes
  split <;> infer_instance

theorem writes_byteText (b : UInt8) : Writes b (byteText b) :=
  forall_byte (P := fun b => Writes b (byteText b)) (by decide +kernel) b

theorem scan_cons {label : Label} {c : Char} (rest : List Char) (hs : c ≠ '\\') (hd : c ≠ '.')
    : scan label (c :: rest) = scan ((Utf8.encodeChar c).reverse ++ label) rest := by
  rw [scan.eq_def]
  split <;> simp_all

/-- A written byte is added to the label that is read, by the way it is written. -/
theorem scan_byteText (label : Label) (b : UInt8) (rest : List Char)
    : scan label (byteText b ++ rest) = scan (b :: label) rest := by
  have h := writes_byteText b
  revert h
  generalize byteText b = cs
  intro h
  match cs, h with
  | [c], ⟨hs, hd, hb⟩ =>
      rw [List.singleton_append, scan_cons rest hs hd, hb]
      rfl
  | [s, c], ⟨hs, hn, hb⟩ =>
      subst hs
      rcases rest with - | ⟨x, - | ⟨y, rest⟩⟩ <;> simp [scan, hn, hb]
  | [s, x, y, z], ⟨hs, hx, hb⟩ =>
      subst hs
      simp [scan, hx, hb]

theorem scan_label (label l : Label) (rest : List Char)
    : scan label (l.flatMap byteText ++ rest) = scan (l.reverse ++ label) rest := by
  induction l generalizing label with
  | nil => rfl
  | cons b l ih =>
      rw [List.flatMap_cons, List.append_assoc, scan_byteText, ih]
      simp

theorem scan_dot {label : Label} {rest : List Char} {labels : List Label} (h : label ≠ [])
    (hrest : scan [] rest = .ok labels)
    : scan label ('.' :: rest) = .ok (label.reverse :: labels) := by
  rw [scan.eq_def]
  simp [h, hrest]

/-- Written labels with a dot behind each are read as labels before what follows, by
induction on the labels.
-/
theorem scan_labels {labels more : List Label} {rest : List Char}
    (h : ∀ l ∈ labels, l ≠ []) (hrest : scan [] rest = .ok more)
    : scan [] (labels.flatMap (fun l => l.flatMap byteText ++ ['.']) ++ rest)
      = .ok (labels ++ more) := by
  induction labels with
  | nil => exact hrest
  | cons l labels ih =>
      have hl : l.reverse ≠ [] := by simpa using h l (by simp)
      have := scan_dot hl (ih fun k hk => h k (List.mem_cons_of_mem l hk))
      simpa [scan_label] using this

-----------------------------------------------------------------------------------------
-- The canonical text of a name
-----------------------------------------------------------------------------------------

theorem labelsOf_ascii {cs : List Char} (h : IsAscii cs) : labelsOf cs = scan [] cs := by
  rw [labelsOf, if_pos]
  simpa [IsAscii] using h

/-- ASCII text with a dot at its end, and something before it, is read label by label. -/
theorem ofCharsWithin_root {cs : List Char} {labels : List Label} (h : cs ≠ [])
    (ascii : IsAscii (cs ++ ['.'])) (hs : scan [] (cs ++ ['.']) = .ok labels)
    : ofCharsWithin root (cs ++ ['.'])
      = if labels.getLast? = some [] then ofLabels labels.dropLast else ofLabels labels := by
  obtain ⟨c, rest, rfl⟩ := List.exists_cons_of_ne_nil h
  have hne : ¬(c :: rest ++ ['.'] = [] ∨ c :: rest ++ ['.'] = ['@']) := by simp
  have hdot : ¬c :: rest ++ ['.'] = ['.'] := by simp
  simp only [ofCharsWithin, hne, hdot, if_false, labelsOf_ascii ascii, hs]
  simp [root]

theorem ofLabels_labels (n : DomainName) : ofLabels n.labels = .ok n := by
  simp [ofLabels, n.valid]

theorem chars_printable {n : DomainName} {c : Char} (h : c ∈ n.chars)
    : c.toNat < 0x80 ∧ isBlank c = false := by
  unfold chars at h
  split at h
  · rw [List.mem_singleton] at h
    subst h
    decide
  · simp only [List.mem_flatMap, List.mem_append, List.mem_singleton] at h
    obtain ⟨l, -, ⟨b, -, hc⟩ | rfl⟩ := h
    · exact byteText_printable b hc
    · decide

/-- The characters of a name in lower case are those of the name, in lower case. -/
theorem chars_lowered (n : DomainName) : n.lowered.chars = n.chars.map Char.toLower := by
  have hdot : Char.toLower '.' = '.' := by decide
  have hempty : n.lowered.labels.isEmpty = n.labels.isEmpty := by simp [lowered, folded]
  unfold chars
  rw [hempty]
  split
  · simp [hdot]
  · simp only [lowered, folded, List.map_flatMap, List.flatMap_map, List.map_append,
      List.map_cons, List.map_nil, hdot, toLower_byteText]

/-- The canonical text of a name is that of its characters in lower case, with one dot at its
end: they are trimmed already.
-/
theorem canonical_chars (n : DomainName)
    : canonical n.chars = dropFinalDots n.lowered.chars ++ ['.'] := by
  have htrim : trim n.chars = n.chars :=
    trim_of_ends (fun c hc => (chars_printable (List.mem_of_mem_head? hc)).2)
      (fun c hc => (chars_printable (List.mem_of_getLast? hc)).2)
  have hlower : lower n.chars = n.lowered.chars := by
    rw [chars_lowered, lower_of_ascii fun c hc => (chars_printable hc).1]
  rw [canonical, htrim, hlower]

theorem byteText_getLast? (b : UInt8)
    : byteText b ≠ [] ∧ ((byteText b).getLast? = some '.' → byteText b = ['\\', '.']) :=
  forall_byte
    (P := fun b =>
      byteText b ≠ [] ∧ ((byteText b).getLast? = some '.' → byteText b = ['\\', '.']))
    (by decide +kernel) b

/-- Characters of a name without its final dots, and one dot put back, read as the name. A
last label that ends with an escaped dot loses that dot and gets it back.
-/
theorem ofCharsWithin_chars (n : DomainName)
    : ofCharsWithin root (dropFinalDots n.chars ++ ['.']) = .ok n := by
  rcases List.eq_nil_or_concat n.labels with hnil | ⟨init, last, hconcat⟩
  · have hchars : n.chars = ['.'] := by simp [chars, hnil]
    have hroot : n = root := by
      cases n
      simpa [root] using hnil
    rw [hchars, hroot]
    rfl
  rw [List.concat_eq_append] at hconcat
  have hlabels : ∀ l ∈ n.labels, l ≠ [] := fun l hl =>
    List.length_pos_iff.1 (n.valid.1 l hl).1
  have hinit : ∀ l ∈ init, l ≠ [] := fun l hl => hlabels l (by simp [hconcat, hl])
  have hlast : last ≠ [] := hlabels last (by simp [hconcat])
  obtain ⟨more, b, rfl⟩ : ∃ more b, last = more ++ [b] := by
    rcases List.eq_nil_or_concat last with h | ⟨more, b, h⟩
    · exact absurd h hlast
    · exact ⟨more, b, by rw [h, List.concat_eq_append]⟩
  obtain ⟨hne, hend⟩ := byteText_getLast? b
  -- All characters before those of the last byte of the last label.
  let front := init.flatMap (fun l => l.flatMap byteText ++ ['.']) ++ more.flatMap byteText
  have hchars : n.chars = front ++ byteText b ++ ['.'] := by
    simp [chars, hconcat, front]
  have hscan (rest : List Char) {labels : List Label}
      (h : scan ((more ++ [b]).reverse) rest = .ok labels)
      : scan [] (front ++ byteText b ++ rest) = .ok (init ++ labels) := by
    have hlabel : scan [] ((more ++ [b]).flatMap byteText ++ rest) = .ok labels := by
      rw [scan_label]
      simpa using h
    simpa [front] using scan_labels hinit hlabel
  have ascii : IsAscii (dropFinalDots n.chars ++ ['.']) :=
    ascii_dot fun c hc => (chars_printable ((prefix_dropRightWhile _ _).subset hc)).1
  rw [hchars, dropFinalDots_concat] at ascii ⊢
  by_cases hdot : (byteText b).getLast? = some '.'
  · have hb := hend hdot
    have hdrop : dropFinalDots (front ++ byteText b) = front ++ ['\\'] := by
      have : front ++ byteText b = front ++ ['\\'] ++ ['.'] := by simp [hb]
      rw [this, dropFinalDots_concat]
      exact dropRightWhile_concat_of_neg _ (by decide)
    have hback : front ++ ['\\'] ++ ['.'] = front ++ byteText b ++ [] := by simp [hb]
    have hread : scan [] (front ++ ['\\'] ++ ['.']) = .ok n.labels := by
      have hend : scan (more ++ [b]).reverse [] = .ok [more ++ [b]] := by simp [scan]
      rw [hback, hscan [] hend, hconcat]
    rw [hdrop] at ascii ⊢
    rw [ofCharsWithin_root (by simp) ascii hread, if_neg, ofLabels_labels]
    simp [hconcat]
  · have hdrop : dropFinalDots (front ++ byteText b) = front ++ byteText b := by
      apply dropFinalDots_of_getLast?
      rwa [List.getLast?_append, List.getLast?_eq_some_getLast hne, Option.some_or,
        ← List.getLast?_eq_some_getLast hne]
    have hread : scan [] (front ++ byteText b ++ ['.']) = .ok (n.labels ++ [[]]) := by
      rw [hscan ['.'] (scan_dot (by simp) rfl), hconcat]
      simp
    rw [hdrop] at ascii ⊢
    rw [ofCharsWithin_root (by simp [hne]) ascii hread]
    simp [ofLabels_labels]

/-- The canonical text of a name reads back as the name in lower case. -/
theorem ofText_canonicalText (n : DomainName) : ofText n.canonicalText = .ok n.lowered := by
  simp only [ofText, canonicalText, canonicalName, text, String.toList_ofList,
    canonical_chars]
  exact ofCharsWithin_chars n.lowered

/-- The canonical text of a name is its own canonical text: all its characters are ASCII. -/
theorem canonicalName_canonicalText (n : DomainName)
    : canonicalName n.canonicalText = n.canonicalText := by
  have hascii : IsAscii n.chars := fun c hc => (chars_printable hc).1
  simp only [canonicalText, canonicalName, text, String.toList_ofList,
    canonical_canonical hascii]

-----------------------------------------------------------------------------------------
-- Plain text: ASCII without a backslash
-----------------------------------------------------------------------------------------

/-- All characters are ASCII, and none is a backslash. -/
def IsPlain (cs : List Char) : Prop := ∀ c ∈ cs, c.toNat < 0x80 ∧ c ≠ '\\'

instance (cs : List Char) : Decidable (IsPlain cs) :=
  List.decidableBAll _ cs

/-- The canonical text of plain text is plain, and its own canonical text. -/
theorem canonicalName_plain {s : String} (h : IsPlain s.toList)
    : IsPlain (canonicalName s).toList
      ∧ canonicalName (canonicalName s) = canonicalName s := by
  have hascii : IsAscii s.toList := fun c hc => (h c hc).1
  have hlower (c : Char) (hc : c.toNat < 0x80) : c ≠ '\\' → c.toLower ≠ '\\' :=
    forall_ascii (P := fun c => c ≠ '\\' → c.toLower ≠ '\\') (by decide) hc
  constructor
  · intro c hc
    rw [canonicalName, String.toList_ofList] at hc
    refine ⟨canonical_ascii hascii c hc, ?_⟩
    rcases List.mem_append.1 hc with hc | hc
    · have htrim : trim s.toList <:+: s.toList := infix_trim _
      rw [lower_of_ascii fun d hd => hascii d (htrim.subset hd)] at hc
      obtain ⟨d, hd, rfl⟩ := List.mem_map.1 ((prefix_dropRightWhile _ _).subset hc)
      obtain ⟨hd, hs⟩ := h d (htrim.subset hd)
      exact hlower d hd hs
    · rw [List.mem_singleton] at hc
      subst hc
      decide
  · simp only [canonicalName, String.toList_ofList, canonical_canonical hascii]

/-- The bytes of ASCII text. -/
def bytesOf (cs : List Char) : Label := cs.map fun c => UInt8.ofNat c.toNat

/-- A piece without dots adds its bytes to the label that is read, by induction on it. -/
theorem scan_piece {piece : List Char} (label : Label) (rest : List Char)
    (plain : IsPlain piece) (hdot : '.' ∉ piece)
    : scan label (piece ++ rest) = scan ((bytesOf piece).reverse ++ label) rest := by
  induction piece generalizing label with
  | nil => rfl
  | cons c piece ih =>
      obtain ⟨hc, hs⟩ := plain c (by simp)
      have hd : c ≠ '.' := fun h => hdot (h ▸ List.mem_cons_self)
      have hb : Utf8.encodeChar c = [UInt8.ofNat c.toNat] := by simp [Utf8.encodeChar, hc]
      rw [List.cons_append, scan_cons _ hs hd, hb,
        ih _ (fun d hd => plain d (List.mem_cons_of_mem c hd))
          fun h => hdot (List.mem_cons_of_mem c h)]
      simp [bytesOf]

/-- Plain pieces with a dot behind each, and a last one, are read as labels unless one before
the last is empty. By induction on those.
-/
theorem scan_pieces_append {init : List (List Char)} {last : List Char}
    (h : ∀ piece ∈ init ++ [last], IsPlain piece ∧ '.' ∉ piece)
    : scan [] (init.flatMap (· ++ ['.']) ++ last)
      = if [] ∈ init then .error .emptyLabel
        else .ok (init.map bytesOf ++ [bytesOf last]) := by
  induction init with
  | nil =>
      obtain ⟨plain, hdot⟩ := h last (by simp)
      have := scan_piece [] [] plain hdot
      simpa [scan] using this
  | cons piece pieces ih =>
      obtain ⟨plain, hdot⟩ := h piece (by simp)
      rw [List.flatMap_cons, List.append_assoc, List.append_assoc, scan_piece _ _ plain hdot,
        List.singleton_append, scan.eq_def]
      have ih := ih fun p hp => h p (List.mem_cons_of_mem piece hp)
      cases piece with
      | nil => simp [bytesOf]
      | cons c rest =>
          by_cases hmem : [] ∈ pieces <;> simp [ih, hmem, bytesOf]

/-- Plain pieces with a dot behind each are read as labels unless one is empty. -/
theorem scan_pieces {pieces : List (List Char)}
    (h : ∀ piece ∈ pieces, IsPlain piece ∧ '.' ∉ piece)
    : scan [] (pieces.flatMap (· ++ ['.']))
      = if [] ∈ pieces then .error .emptyLabel
        else .ok (pieces.map bytesOf ++ [[]]) := by
  have all : ∀ piece ∈ pieces ++ [[]], IsPlain piece ∧ '.' ∉ piece := by
    intro piece hpiece
    rcases List.mem_append.1 hpiece with hpiece | hpiece
    · exact h piece hpiece
    · rw [List.mem_singleton.1 hpiece]
      exact ⟨nofun, nofun⟩
  have hscan := scan_pieces_append all
  rwa [List.append_nil] at hscan

/-- What plain pieces write: the empty piece alone the root, and otherwise their labels if
none is empty.
-/
theorem ofText_pieces {pieces : List (List Char)} (hne : pieces ≠ [])
    (h : ∀ piece ∈ pieces, IsPlain piece ∧ '.' ∉ piece)
    : ofText (String.ofList (pieces.flatMap (· ++ ['.'])))
      = if pieces = [[]] then .ok root
        else if [] ∈ pieces then .error .emptyLabel
        else ofLabels (pieces.map bytesOf) := by
  by_cases hroot : pieces = [[]]
  · subst hroot
    rfl
  rw [if_neg hroot]
  obtain ⟨init, last, hconcat⟩ := (List.eq_nil_or_concat pieces).resolve_left hne
  rw [List.concat_eq_append] at hconcat
  have htext : pieces.flatMap (· ++ ['.']) = init.flatMap (· ++ ['.']) ++ last ++ ['.'] := by
    simp [hconcat]
  have hx : init.flatMap (· ++ ['.']) ++ last ≠ [] := by
    intro hx
    obtain ⟨hinit, rfl⟩ := List.append_eq_nil_iff.1 hx
    cases init with
    | nil => exact hroot hconcat
    | cons p ps => simp at hinit
  have hscan := scan_pieces h
  have ascii : IsAscii (pieces.flatMap (· ++ ['.'])) := by
    intro c hc
    obtain ⟨piece, hpiece, hc⟩ := List.mem_flatMap.1 hc
    exact ascii_dot (fun d hd => ((h piece hpiece).1 d hd).1) c hc
  rw [ofText, String.toList_ofList]
  rw [htext] at ascii ⊢
  by_cases hmem : [] ∈ pieces
  · simp only [htext, hmem, if_true] at hscan
    obtain ⟨c, rest, hcons⟩ := List.exists_cons_of_ne_nil hx
    rw [hcons, List.cons_append] at hscan ascii ⊢
    simp [ofCharsWithin, labelsOf_ascii ascii, hscan, hmem]
  · simp only [htext, hmem, if_false] at hscan
    rw [ofCharsWithin_root hx ascii hscan, if_neg hmem]
    simp

/-- A name that plain pieces write has them as its labels; the empty piece alone writes the
root.
-/
theorem labels_of_pieces {pieces : List (List Char)} {n : DomainName} (hne : pieces ≠ [])
    (h : ∀ piece ∈ pieces, IsPlain piece ∧ '.' ∉ piece)
    (hn : ofText (String.ofList (pieces.flatMap (· ++ ['.']))) = .ok n)
    : pieces = [[]] ∧ n = root ∨ [] ∉ pieces ∧ n.labels = pieces.map bytesOf := by
  rw [ofText_pieces hne h] at hn
  split at hn
  · next hroot => exact .inl ⟨hroot, (Except.ok.inj hn).symm⟩
  · split at hn
    · cases hn
    · next hmem => exact .inr ⟨hmem, labels_of_ofLabels hn⟩

/-- Text that ends with a piece has no dots at its end if the piece has characters, but no dots. -/
theorem dropFinalDots_piece (front : List Char) {last : List Char} (hne : last ≠ [])
    (hdot : '.' ∉ last)
    : dropFinalDots (front ++ last) = front ++ last := by
  apply dropFinalDots_of_getLast?
  rw [List.getLast?_append, List.getLast?_eq_some_getLast hne, Option.some_or]
  exact fun dot => hdot (Option.some.inj dot ▸ List.getLast_mem hne)

/-- Pieces with a dot behind each, and a last one, are the pieces of their text without its final
dots; an empty last piece is left out.
-/
theorem splitOn_dropFinalDots {init : List (List Char)} {last : List Char}
    (dotless : ∀ piece ∈ init ++ [last], '.' ∉ piece) (filled : [] ∉ init)
    (written : init ++ [last] ≠ [[]])
    : splitOn '.' (dropFinalDots (init.flatMap (· ++ ['.']) ++ last))
      = if last = [] then init else init ++ [last] := by
  split
  · next hlast =>
    subst hlast
    obtain ⟨front, piece, rfl⟩ : ∃ front piece, init = front ++ [piece] := by
      rcases List.eq_nil_or_concat init with rfl | ⟨front, piece, h⟩
      · exact absurd rfl written
      · exact ⟨front, piece, by rw [h, List.concat_eq_append]⟩
    have hne : piece ≠ [] := fun h => filled (by simp [h])
    have body : (front ++ [piece]).flatMap (· ++ ['.']) ++ []
        = front.flatMap (· ++ ['.']) ++ piece ++ ['.'] := by
      simp
    rw [body, dropFinalDots_concat, dropFinalDots_piece _ hne (dotless piece (by simp)),
      splitOn_flatMap_append fun p hp => dotless p (List.mem_append_left _ hp)]
  · next hlast =>
    rw [dropFinalDots_piece _ hlast (dotless last (by simp)), splitOn_flatMap_append dotless]

/-- The labels of the name that plain text writes are the pieces of the text without its final
dots. The root is written by nothing, by a dot, or by the sign for the origin.
-/
theorem labels_of_plain {cs : List Char} {n : DomainName} (plain : IsPlain cs)
    (hn : ofText (String.ofList cs) = .ok n)
    : n = root ∧ (cs = [] ∨ cs = ['@'] ∨ cs = ['.'])
      ∨ n.labels = (splitOn '.' (dropFinalDots cs)).map bytesOf := by
  rw [ofText, String.toList_ofList, ofCharsWithin] at hn
  split at hn
  · next h => exact .inl ⟨(Except.ok.inj hn).symm, h.imp_right .inl⟩
  next horigin =>
  split at hn
  · next h => exact .inl ⟨(Except.ok.inj hn).symm, .inr (.inr h)⟩
  right
  obtain ⟨init, last, hsplit, hcs⟩ := exists_splitOn '.' cs
  have hpieces (piece : List Char) (hp : piece ∈ init ++ [last])
      : IsPlain piece ∧ '.' ∉ piece := by
    rw [← hsplit] at hp
    exact ⟨fun c hc => plain c (mem_of_mem_splitOn hp hc), not_mem_of_mem_splitOn hp⟩
  have written : init ++ [last] ≠ [[]] := by
    intro h
    rw [← hsplit] at h
    have joined := flatMap_splitOn '.' cs
    rw [h] at joined
    exact horigin (.inl (List.append_cancel_right joined).symm)
  have hscan := scan_pieces_append hpieces
  rw [← hcs] at hscan
  rw [labelsOf_ascii fun c hc => (plain c hc).1, hscan] at hn
  split at hn
  · cases hn
  next labels hlabels =>
  split at hlabels
  · cases hlabels
  next filled =>
  obtain rfl := Except.ok.inj hlabels
  rw [hcs, splitOn_dropFinalDots (fun p hp => (hpieces p hp).2) filled written]
  have hend : (init.map bytesOf ++ [bytesOf last]).getLast? = some [] ↔ last = [] := by
    simp [bytesOf]
  simp only [hend] at hn
  split at hn
  · next hlast =>
    rw [if_pos hlast]
    simpa using labels_of_ofLabels hn
  · next hlast =>
    rw [if_neg hlast]
    simpa [root] using labels_of_ofLabels hn

end DomainName

end NameserverAudit
