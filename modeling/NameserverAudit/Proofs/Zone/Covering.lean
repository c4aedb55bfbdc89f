import NameserverAudit.Proofs.Name.Pieces
import NameserverAudit.Zone.Directory

/-! The delegation that covers a domain, which is found by the text of its zone. Main statement:
for plain text the zone that is found contains the name, because the labels of the zone's text are
the last labels of the domain's.
-/

namespace NameserverAudit

open Text

/-- What lies below a zone is not asked about by the text of the zone. -/
theorem Question.text_ne_of_isBelow {text : String} {q : Question} {zone : DomainName}
    (asks : ofText text = .ok q) (below : q.name.IsBelow zone)
    : zone.canonicalText ≠ q.text := by
  intro h
  unfold ofText at asks
  split at asks
  · next n hn =>
    obtain rfl : (⟨text, n⟩ : Question) = q := Except.ok.inj asks
    have hname : zone.lowered = n := by
      have hread := DomainName.ofText_canonicalText zone
      rw [h, hn, Except.ok.injEq] at hread
      exact hread.symm
    have hsame : n.same zone = true := by
      rw [DomainName.same_iff, ← hname, DomainName.folded_lowered]
      rfl
    exact absurd hsame (by simp [below.2])
  · cases asks

namespace Zone

open DomainName

namespace Directory

/-- The delegation of all labels counts before those of fewer of the last ones. -/
theorem covering_cons (d : Directory) (first : List Char) (rest : List (List Char))
    : d.covering (first :: rest)
      = (d.delegation? (dotted (first :: rest))).or (d.covering rest) := by
  rw [covering, intercalate_concat, ← dotted]
  cases d.delegation? (dotted (first :: rest)) <;> rfl

/-- The delegation that is found is that of a zone whose text is made of some of the last
labels, by induction on the labels.
-/
theorem zone_of_covering {d : Directory} {labels : List (List Char)} {e : Delegation}
    (h : d.covering labels = some e)
    : ∃ back, back ≠ [] ∧ back <:+ labels ∧ e.zone = dotted back := by
  induction labels with
  | nil => simp [covering] at h
  | cons first rest ih =>
      rw [covering_cons, Option.or_eq_some_iff] at h
      rcases h with h | ⟨-, h⟩
      · have hzone := List.find?_some h
        exact ⟨first :: rest, by simp, List.suffix_refl _, by simpa using hzone⟩
      · obtain ⟨back, hne, hsuffix, hzone⟩ := ih h
        exact ⟨back, hne, hsuffix.trans (List.suffix_cons _ _), hzone⟩

/-- Plain text lies within the zone of the delegation that covers it. -/
theorem isWithin_of_delegationFor {d : Directory} {text : String} {n : DomainName}
    {e : Delegation} (plain : IsPlain text.toList) (hcanonical : canonicalName text = text)
    (hn : DomainName.ofText text = .ok n) (h : d.delegationFor text = some e)
    : n.isWithin e.name = true := by
  have covers : d.covering (piecesOf text) = some e := h
  obtain ⟨back, hne, hsuffix, hzone⟩ := zone_of_covering covers
  have hpieces := piecesOf_plain plain
  have hread : DomainName.ofText (dotted (piecesOf text)) = .ok n := by
    rw [dotted_piecesOf, hcanonical, hn]
  have hzoneName : DomainName.ofText (dotted back) = .ok e.name.lowered := by
    rw [← hzone]
    exact ofText_canonicalText e.name
  rw [isWithin_iff]
  rcases labels_of_pieces hne (fun p hp => hpieces p (hsuffix.subset hp)) hzoneName with
    ⟨-, hroot⟩ | ⟨hback, hlabels⟩
  · have : e.name.folded = [] := congrArg DomainName.labels hroot
    rw [this]
    exact List.nil_suffix
  rcases labels_of_pieces (piecesOf_ne_nil text) hpieces hread with ⟨hroot, -⟩ | ⟨-, hname⟩
  · rw [hroot] at hsuffix
    rw [eq_singleton_of_suffix hne hsuffix] at hback
    exact absurd List.mem_cons_self hback
  -- Lower case does nothing to the zone's labels, which stand in lower case already.
  have hfolded : e.name.folded = (back.map bytesOf).map (·.map foldByte) := by
    rw [← hlabels]
    exact (folded_lowered e.name).symm
  rw [hfolded, folded, hname]
  exact (hsuffix.map bytesOf).map _

end Directory

end Zone

end NameserverAudit
