import NameserverAudit.Proofs.Address.Reading
import NameserverAudit.Proofs.Text.Canonical

/-! The canonical text of an address. No form of an address has a blank in it, so the canonical
text of every address is canonical, and the presentation form has the canonical text of its
address, be it another text or the same.
-/

namespace NameserverAudit

open Text

-----------------------------------------------------------------------------------------
-- Addresses have no blanks
-----------------------------------------------------------------------------------------

theorem isBlank_digitChar : ∀ d < 16, isBlank (Nat.digitChar d) = false := by decide

theorem Ipv4.isBlank_of_mem_chars {a : Ipv4} {c : Char} (h : c ∈ a.chars)
    : isBlank c = false := by
  rcases mem_intercalate h with rfl | ⟨piece, hpiece, hc⟩
  · decide
  · obtain ⟨b, -, rfl⟩ := List.mem_map.1 hpiece
    obtain ⟨d, hd, rfl⟩ := exists_digit_of_mem_toDigits (by decide) hc
    exact isBlank_digitChar d (by omega)

namespace Ipv6

theorem isBlank_of_mem_chars {a : Ipv6} {c : Char} (h : c ∈ a.chars) : isBlank c = false := by
  rcases mem_chars h with rfl | ⟨d, hd, rfl⟩
  · decide
  · exact isBlank_digitChar d hd

theorem isBlank_of_mem_presentationChars {a : Ipv6} {c : Char}
    (h : c ∈ a.presentationChars)
    : isBlank c = false := by
  have hmixed {front : List Char} (hfront : front.all (fun c => !isBlank c) = true)
      (h : c ∈ front ++ a.lowAddress.chars)
      : isBlank c = false := by
    rcases List.mem_append.1 h with h | h
    · simpa using List.all_eq_true.1 hfront c h
    · exact Ipv4.isBlank_of_mem_chars h
  simp only [presentationChars] at h
  split at h
  · exact hmixed (by decide) h
  · split at h
    · exact hmixed (by decide) h
    · exact isBlank_of_mem_chars h

end Ipv6

namespace Address

theorem isBlank_of_mem_text {a : Address} {c : Char} (h : c ∈ a.unscoped.text.toList)
    : isBlank c = false := by
  cases a with
  | v4 a =>
      rw [unscoped, text, Ipv4.text, String.toList_ofList] at h
      exact Ipv4.isBlank_of_mem_chars h
  | v6 a scope =>
      simp only [unscoped, text, String.append_empty, String.toList_ofList] at h
      exact Ipv6.isBlank_of_mem_chars h

theorem isBlank_of_mem_presentation {a : Address} {c : Char}
    (h : c ∈ a.presentation.toList)
    : isBlank c = false := by
  cases a with
  | v4 a =>
      rw [presentation, Ipv4.text, String.toList_ofList] at h
      exact Ipv4.isBlank_of_mem_chars h
  | v6 a scope =>
      rw [presentation, String.toList_ofList] at h
      exact Ipv6.isBlank_of_mem_presentationChars h

-----------------------------------------------------------------------------------------
-- Canonical texts
-----------------------------------------------------------------------------------------

/-- Text without blanks that reads as an address has the canonical text of that address. -/
theorem canonicalAddress_of_read {s : String} {a : Address}
    (solid : ∀ c ∈ s.toList, isBlank c = false) (read : ofText? s = some a)
    : canonicalAddress s = .ok a.text := by
  have hstrip : strip s = s := by
    have htrim : trim s.toList = s.toList :=
      trim_of_ends (fun c hc => solid c (List.mem_of_mem_head? hc))
        (fun c hc => solid c (List.mem_of_getLast? hc))
    rw [strip, htrim, String.ofList_toList]
  simp [canonicalAddress, canonicalAddress?, hstrip, read]

/-- The canonical text of an address without a scope is canonical. -/
theorem canonicalAddress_text (a : Address)
    : canonicalAddress a.unscoped.text = .ok a.unscoped.text :=
  canonicalAddress_of_read (fun _ => isBlank_of_mem_text) a.ofText?_text

/-- The presentation form of an address is a literal, of the canonical text of the address. -/
theorem canonicalAddress_presentation (a : Address)
    : canonicalAddress a.presentation = .ok a.unscoped.text :=
  canonicalAddress_of_read (fun _ => isBlank_of_mem_presentation) a.ofText?_presentation

end Address

end NameserverAudit
