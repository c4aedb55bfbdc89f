import NameserverAudit.Proofs.Name.Reading

/-! Names that lie within others, and names that are the same. Main statement: names are the same
just if they have one canonical text.
-/

namespace NameserverAudit

namespace DomainName

/-- A name lies within another one if its labels end with those of the other. -/
theorem isWithin_iff {m n : DomainName} : m.isWithin n = true ↔ n.folded <:+ m.folded :=
  List.isSuffixOf_iff_suffix

/-- Names are the same if their labels are, without regard to case. -/
theorem same_iff {m n : DomainName} : m.same n = true ↔ m.folded = n.folded := by
  simp [same]

theorem same_comm (m n : DomainName) : m.same n = n.same m := by
  rw [Bool.eq_iff_iff, same_iff, same_iff, eq_comm]

theorem isWithin_root (n : DomainName) : n.isWithin root = true :=
  isWithin_iff.2 (List.nil_suffix)

/-- The first name lies strictly below the second. -/
def IsBelow (m n : DomainName) : Prop := m.isWithin n = true ∧ m.same n = false

/-- What lies below something below a name lies below that name: the number of labels grows
twice.
-/
theorem IsBelow.trans {l m n : DomainName} (hl : l.IsBelow m) (hm : m.IsBelow n)
    : l.IsBelow n := by
  obtain ⟨hlm, -⟩ := hl
  obtain ⟨hmn, hne⟩ := hm
  rw [isWithin_iff] at hlm hmn
  refine ⟨isWithin_iff.2 (hmn.trans hlm), ?_⟩
  rw [Bool.eq_false_iff, ne_eq, same_iff] at hne ⊢
  intro h
  rw [h] at hlm
  exact hne (hlm.eq_of_length_le hmn.length_le)

theorem IsBelow.labels_lt {m n : DomainName} (h : m.IsBelow n)
    : n.labels.length < m.labels.length := by
  obtain ⟨hwithin, hne⟩ := h
  rw [isWithin_iff] at hwithin
  rw [Bool.eq_false_iff, ne_eq, same_iff] at hne
  have hle := hwithin.length_le
  have : n.folded.length ≠ m.folded.length := fun heq => hne (hwithin.eq_of_length heq).symm
  simp only [folded, List.length_map] at hle this
  omega

theorem labels_le_of_isWithin {m n : DomainName} (h : m.isWithin n = true)
    : n.labels.length ≤ m.labels.length := by
  have hle := (isWithin_iff.1 h).length_le
  simpa only [folded, List.length_map] using hle

theorem folded_lowered (n : DomainName) : n.lowered.folded = n.lowered.labels := by
  simp [lowered, folded, Function.comp_def, foldByte_foldByte]

/-- Names with the same canonical text are the same: both read back from it. -/
theorem folded_of_canonicalText {m n : DomainName} (h : m.canonicalText = n.canonicalText)
    : m.folded = n.folded := by
  have hread := ofText_canonicalText m
  rw [h, ofText_canonicalText n, Except.ok.injEq] at hread
  exact (congrArg labels hread).symm

/-- Names have one canonical text just if they are the same: the text is that of the name in
lower case.
-/
theorem canonicalText_eq_iff {m n : DomainName}
    : m.canonicalText = n.canonicalText ↔ m.same n = true := by
  refine ⟨fun h => same_iff.2 (folded_of_canonicalText h), fun h => ?_⟩
  have hlowered : m.lowered = n.lowered := by
    simp only [lowered, same_iff.1 h]
  simp only [canonicalText, canonicalName, text, String.toList_ofList, canonical_chars, hlowered]

theorem canonicalText_of_folded_nil {n : DomainName} (h : n.folded = [])
    : n.canonicalText = "." := by
  have hlabels : n.labels = [] := List.map_eq_nil_iff.1 h
  have hroot : n = root := by
    cases n
    simpa [root] using hlabels
  rw [hroot]
  decide

end DomainName

end NameserverAudit
