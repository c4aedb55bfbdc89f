import NameserverAudit.Text.Split

/-! The pieces of a text between the occurrences of a separator: what the pieces of joined
texts are, and where the characters of a piece stand.
-/

namespace NameserverAudit.Text

/-- The pieces of a text with the separator behind each give the text with one behind it, by
induction on the text.
-/
theorem flatMap_splitOn (sep : Char) (cs : List Char)
    : (splitOn sep cs).flatMap (· ++ [sep]) = cs ++ [sep] := by
  induction cs with
  | nil => rfl
  | cons c rest ih =>
      simp only [splitOn]
      split
      · next hc => simp [ih, hc]
      · split
        · next hnil => exact absurd hnil (splitOn_ne_nil sep rest)
        · next piece pieces heq =>
          rw [heq] at ih
          simpa using ih

/-- Texts with the same pieces are the same. -/
theorem splitOn_injective (sep : Char) : Function.Injective (splitOn sep) := by
  intro cs ds h
  have joined := flatMap_splitOn sep cs
  rw [h, flatMap_splitOn] at joined
  exact (List.append_cancel_right joined).symm

/-- A text is its pieces but the last with the separator behind each, and the last one. -/
theorem exists_splitOn (sep : Char) (cs : List Char)
    : ∃ init last,
        splitOn sep cs = init ++ [last] ∧ cs = init.flatMap (· ++ [sep]) ++ last := by
  obtain ⟨init, last, hconcat⟩ :=
    (List.eq_nil_or_concat (splitOn sep cs)).resolve_left (splitOn_ne_nil sep cs)
  rw [List.concat_eq_append] at hconcat
  refine ⟨init, last, hconcat, ?_⟩
  have joined := flatMap_splitOn sep cs
  rw [hconcat, List.flatMap_append, List.flatMap_singleton, ← List.append_assoc] at joined
  exact (List.append_cancel_right joined).symm

/-- Characters of a piece are characters of the text: they stand in its joined pieces. -/
theorem mem_of_mem_splitOn {sep c : Char} {cs piece : List Char} (h : piece ∈ splitOn sep cs)
    (hc : c ∈ piece)
    : c ∈ cs := by
  have hmem : c ∈ (splitOn sep cs).flatMap (· ++ [sep]) :=
    List.mem_flatMap.2 ⟨piece, h, List.mem_append_left _ hc⟩
  rw [flatMap_splitOn] at hmem
  rcases List.mem_append.1 hmem with hmem | hmem
  · exact hmem
  · rw [List.mem_singleton] at hmem
    exact absurd (hmem ▸ hc) (not_mem_of_mem_splitOn h)

/-- Pieces with the separator between them and one behind them are pieces with the separator
behind each, by induction on the pieces.
-/
theorem intercalate_concat (sep : Char) (first : List Char) (rest : List (List Char))
    : List.intercalate [sep] (first :: rest) ++ [sep]
      = (first :: rest).flatMap (· ++ [sep]) := by
  induction rest generalizing first with
  | nil => simp
  | cons next rest ih =>
      rw [List.flatMap_cons, ← ih next, List.intercalate_cons_cons]
      simp

/-- A text is its pieces with the separator between them. -/
theorem intercalate_splitOn (sep : Char) (cs : List Char)
    : List.intercalate [sep] (splitOn sep cs) = cs := by
  obtain ⟨first, rest, hsplit⟩ := List.exists_cons_of_ne_nil (splitOn_ne_nil sep cs)
  have joined := flatMap_splitOn sep cs
  rw [hsplit, ← intercalate_concat, ← hsplit] at joined
  exact List.append_cancel_right joined

/-- A character of joined texts is the separator or a character of one of them. -/
theorem mem_intercalate {sep c : Char} {pieces : List (List Char)}
    (h : c ∈ List.intercalate [sep] pieces)
    : c = sep ∨ ∃ piece ∈ pieces, c ∈ piece := by
  cases pieces with
  | nil => simp at h
  | cons first rest =>
      have hmem : c ∈ (first :: rest).flatMap (· ++ [sep]) := by
        rw [← intercalate_concat]
        exact List.mem_append_left _ h
      obtain ⟨piece, hpiece, hc⟩ := List.mem_flatMap.1 hmem
      rcases List.mem_append.1 hc with hc | hc
      · exact .inr ⟨piece, hpiece, hc⟩
      · exact .inl (List.mem_singleton.1 hc)

/-- The pieces around a separator are those before it and those after it, by induction on the
text before it.
-/
theorem splitOn_append (sep : Char) (front back : List Char)
    : splitOn sep (front ++ sep :: back) = splitOn sep front ++ splitOn sep back := by
  induction front with
  | nil => simp [splitOn]
  | cons c rest ih =>
      simp only [List.cons_append, splitOn, ih]
      split
      · rfl
      · obtain ⟨piece, pieces, heq⟩ := List.exists_cons_of_ne_nil (splitOn_ne_nil sep rest)
        simp [heq]

/-- Joined texts without the separator are split into these texts, by induction on them. -/
theorem splitOn_intercalate {sep : Char} {pieces : List (List Char)} (hne : pieces ≠ [])
    (h : ∀ piece ∈ pieces, sep ∉ piece)
    : splitOn sep (List.intercalate [sep] pieces) = pieces := by
  induction pieces with
  | nil => exact absurd rfl hne
  | cons first rest ih =>
      cases rest with
      | nil => simpa using splitOn_of_not_mem (h first (by simp))
      | cons next rest =>
          rw [List.intercalate_cons_cons, List.append_assoc, List.singleton_append,
            splitOn_append_cons _ (h first (by simp)),
            ih (by simp) fun piece hp => h piece (List.mem_cons_of_mem first hp)]

/-- Pieces with the separator behind each, and a last one, are the pieces of their text, by
induction on them.
-/
theorem splitOn_flatMap_append {sep : Char} {init : List (List Char)} {last : List Char}
    (h : ∀ piece ∈ init ++ [last], sep ∉ piece)
    : splitOn sep (init.flatMap (· ++ [sep]) ++ last) = init ++ [last] := by
  induction init with
  | nil => exact splitOn_of_not_mem (h last (by simp))
  | cons first rest ih =>
      rw [List.flatMap_cons, List.append_assoc, List.append_assoc, List.singleton_append,
        splitOn_append_cons _ (h first (by simp)),
        ih fun piece hp => h piece (List.mem_cons_of_mem first hp)]
      rfl

/-- Splitting goes along with a change of characters that neither makes nor takes a separator, by
induction on the text.
-/
theorem splitOn_map {sep : Char} {f : Char → Char} (keeps : ∀ c, f c = sep ↔ c = sep)
    (cs : List Char)
    : splitOn sep (cs.map f) = (splitOn sep cs).map (List.map f) := by
  induction cs with
  | nil => rfl
  | cons c rest ih =>
      simp only [List.map_cons, splitOn, keeps, ih]
      split
      · rfl
      · cases splitOn sep rest <;> rfl

end NameserverAudit.Text
