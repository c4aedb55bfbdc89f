import Mathlib.Data.List.Basic
import NameserverAudit.Proofs.Name.Host
import NameserverAudit.Proofs.Text.Spelling

/-! The texts that name a host-style domain. Blanks around the domain, dots at its end and the case
of its letters are the only liberties that a text may take. Main statement: a text is accepted just
if what it leaves without them is a host-style domain, which then is its own form and the text of
the name with its labels.
-/

namespace NameserverAudit

open Text DomainName

namespace Host

-----------------------------------------------------------------------------------------
-- What a text leaves
-----------------------------------------------------------------------------------------

/-- A text leaves its body, in lower case. Behind the body stand all dots of the end, and around
the two all blanks of either end.
-/
inductive Leaves : List Char → List Char → Prop
  | intro {before body dots after : List Char} (front : ∀ c ∈ before, isBlank c = true)
    (first : ∀ c, (body ++ dots).head? = some c → isBlank c = false)
    (undotted : body.getLast? ≠ some '.') (final : ∀ c ∈ dots, c = '.')
    (last : ∀ c, (body ++ dots).getLast? = some c → isBlank c = false)
    (back : ∀ c ∈ after, isBlank c = true)
    : Leaves (before ++ (body ++ dots) ++ after) (lower body)

/-- A text leaves one thing only, that without blanks around it, dots at its end and capitals. -/
theorem leaves_iff {raw cs : List Char}
    : Leaves raw cs ↔ lower (dropFinalDots (trim raw)) = cs := by
  constructor
  · rintro ⟨front, first, undotted, final, last, back⟩
    rw [trim_append first last front back, dropFinalDots_append_dots _ final,
      dropFinalDots_of_getLast? undotted]
  · rintro rfl
    obtain ⟨before, after, whole, front, back⟩ := exists_append_trim raw
    obtain ⟨dots, trimmed, final⟩ := exists_append_dropRightWhile (· = '.') (trim raw)
    have undotted : (dropFinalDots (trim raw)).getLast? ≠ some '.' := fun dot =>
      absurd (getLast?_dropRightWhile dot) (by decide)
    have leaves : Leaves (before ++ (dropFinalDots (trim raw) ++ dots) ++ after)
        (lower (dropFinalDots (trim raw))) := by
      refine .intro front ?_ undotted (by simpa using final) ?_ back
      · rw [dropFinalDots, ← trimmed]
        exact fun c hc => isBlank_head?_trim hc
      · rw [dropFinalDots, ← trimmed]
        exact fun c hc => getLast?_dropRightWhile hc
    rw [dropFinalDots, ← trimmed, ← whole] at leaves
    exact leaves

theorem target_eq_iff {raw s : String} : target raw = s ↔ Leaves raw.toList s.toList := by
  rw [leaves_iff, target, ← String.toList_inj, String.toList_ofList]

/-- A text is accepted as the host-style domain that it leaves. -/
theorem domain?_eq_some_iff {raw s : String}
    : domain? raw = some s ↔ Leaves raw.toList s.toList ∧ ∃ labels, HasLabels s labels := by
  rw [← target_eq_iff, ← isDomain_iff_hasLabels, domain?]
  constructor
  · intro h
    split at h
    · next accepted =>
      obtain rfl := Option.some.inj h
      exact ⟨rfl, accepted⟩
    · cases h
  · rintro ⟨rfl, accepted⟩
    exact if_pos accepted

-----------------------------------------------------------------------------------------
-- A host-style domain as a text and as a name
-----------------------------------------------------------------------------------------

/-- A host-style domain leaves itself. -/
theorem domain?_domain {s : String} (h : isDomain s = true) : domain? s = some s := by
  have same : target s = s := by
    rw [target, trim_domain h, dropFinalDots_domain h, lower_domain h, String.ofList_toList]
  exact domain?_eq_some_iff.2 ⟨target_eq_iff.1 same, isDomain_iff_hasLabels.1 h⟩

theorem canonicalName_domain {s : String} (h : isDomain s = true)
    : canonicalName s = s ++ "." := by
  rw [canonicalName, canonical_domain h, ← String.toList_inj]
  simp

/-- The bytes of a label are written as the label: none of its characters is escaped. -/
theorem byteText_label {label : List Char} (h : LabelText label)
    : (bytesOf label).flatMap byteText = label := by
  have stands (c : Char) (hc : c ∈ label) : byteText (UInt8.ofNat c.toNat) = [c] := by
    obtain ⟨host, undotted⟩ := h.isHostChar c hc
    exact host.byteText_eq undotted
  rw [bytesOf, List.flatMap_map, List.flatMap_congr stands, List.flatMap_singleton']

/-- A name with the labels of a host-style domain has its canonical text. -/
theorem HasLabels.text_eq {s : String} {labels : List (List Char)} {n : DomainName}
    (h : HasLabels s labels) (hn : n.labels = labels.map bytesOf)
    : n.text = canonicalName s := by
  have accepted : isDomain s = true := isDomain_iff_hasLabels.2 ⟨labels, h⟩
  have filled : labels ≠ [] := h.splitOn_eq ▸ splitOn_ne_nil _ _
  have some_label : n.labels.isEmpty = false := by
    simpa [hn] using filled
  have written (label : List Char) (hlabel : label ∈ labels)
      : (bytesOf label).flatMap byteText ++ ['.'] = label ++ ['.'] := by
    rw [byteText_label (h.each label hlabel)]
  rw [canonicalName, canonical_domain accepted, text, chars, some_label, hn, List.flatMap_map,
    List.flatMap_congr written, ← h.splitOn_eq, flatMap_splitOn]
  rfl

/-- A text is accepted exactly if what it leaves without blanks around it, dots at its end and
capitals is a host-style domain. That domain is accepted as itself, and its canonical text is
read without a fault, as the name with its labels, which is written in the same way.
-/
theorem accepts_host_style (raw : String)
    : (∀ s, domain? raw = some s ↔ Leaves raw.toList s.toList ∧ ∃ labels, HasLabels s labels)
      ∧ ∀ s, domain? raw = some s →
          domain? s = some s
          ∧ ∃ labels n,
              HasLabels s labels
              ∧ (∀ others, HasLabels s others → others = labels)
              ∧ canonicalName s = s ++ "."
              ∧ DomainName.ofText (canonicalName s) = .ok n
              ∧ n.labels = labels.map bytesOf
              ∧ n.text = canonicalName s := by
  refine ⟨fun s => domain?_eq_some_iff, fun s accepted => ?_⟩
  have h := isDomain_of_domain? accepted
  have labels := hasLabels_splitOn h
  obtain ⟨n, read, hn⟩ := exists_name h
  exact ⟨domain?_domain h, _, n, labels, fun others other => other.splitOn_eq.symm,
    canonicalName_domain h, read, hn, labels.text_eq hn⟩

/-- Witness: a text with a no-break space in front, a line feed behind, two dots, an underscore, and
capitals, among them the sign for kelvin.
-/
theorem shoutedText_accepted
    : domain? "\u00a0_\u212aey.Example.COM..\n" = some "_key.example.com"
      ∧ ∃ n,
          DomainName.ofText "_key.example.com." = .ok n
          ∧ n.labels = [
              [0x5f, 0x6b, 0x65, 0x79],
              [0x65, 0x78, 0x61, 0x6d, 0x70, 0x6c, 0x65],
              [0x63, 0x6f, 0x6d]]
          ∧ n.text = "_key.example.com." := by
  have accepted : domain? "\u00a0_\u212aey.Example.COM..\n" = some "_key.example.com" := by
    decide +kernel
  obtain ⟨-, labels, n, hlabels, -, canonical_eq, read, hn, written⟩ :=
    (accepts_host_style _).2 _ accepted
  have same : labels = ["_key".toList, "example".toList, "com".toList] :=
    hlabels.splitOn_eq.symm.trans (by decide)
  rw [canonical_eq] at read written
  refine ⟨accepted, n, read, ?_, written⟩
  rw [hn, same]
  decide

/-- A label of 63 letters and digits has no room for an underscore in front. -/
example
    : domain? (String.ofList (List.replicate 63 'a')) = some (String.ofList (List.replicate 63 'a'))
      ∧ domain? (String.ofList ('_' :: List.replicate 63 'a')) = none := by
  decide +kernel

end Host

end NameserverAudit
