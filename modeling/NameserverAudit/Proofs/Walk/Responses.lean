import NameserverAudit.Proofs.Address.Reading
import NameserverAudit.Walk.Referral

/-! What is read off the record sets of a response: the addresses of its answer and of the
glue, and their families.
-/

namespace NameserverAudit

/-- An address of a record set is of the family of the set, which goes with its type. -/
theorem Content.family_of_mem_addresses {c : Content} {a : String} (h : a ∈ c.addresses)
    : c.type = .a ∧ Response.familyOf c = some .ipv4 ∧ familyOf? a = some .ipv4
      ∨ c.type = .aaaa ∧ Response.familyOf c = some .ipv6 ∧ familyOf? a = some .ipv6 := by
  cases c with
  | nameservers _ | foreign _ _ | other _ => simp [addresses] at h
  | ipv4 xs =>
      obtain ⟨x, -, rfl⟩ := List.mem_map.1 h
      exact .inl ⟨rfl, rfl, (Address.v4 x).familyOf?_text⟩
  | ipv6 xs =>
      obtain ⟨x, -, rfl⟩ := List.mem_map.1 h
      exact .inr ⟨rfl, rfl, (Address.v6 x none).familyOf?_text⟩

namespace Response

/-- A response that tells nothing. -/
def blank : Response := ⟨false, false, .noError, [], [], []⟩

/-- The texts of a list after others are added are those of both, by induction on the added
ones.
-/
theorem mem_addNew {out new : List String} {a : String}
    : a ∈ addNew out new ↔ a ∈ out ∨ a ∈ new := by
  induction new generalizing out with
  | nil => simp [addNew]
  | cons x rest ih =>
      simp only [addNew]
      split
      · next hx =>
        rw [List.contains_eq_mem, decide_eq_true_eq] at hx
        rw [ih, List.mem_cons]
        refine ⟨Or.imp_right .inr, ?_⟩
        rintro (h | rfl | h)
        · exact .inl h
        · exact .inl hx
        · exact .inr h
      · rw [ih, List.mem_append, List.mem_singleton, List.mem_cons, or_assoc]

/-- The addresses of a type in the answer are those of its record sets of this type. -/
theorem mem_addressesOf {r : Response} {type : RecordType} {a : String}
    : a ∈ r.addressesOf type
      ↔ ∃ s ∈ r.answer, s.content.type = type ∧ a ∈ s.content.addresses := by
  simp [addressesOf, mem_addNew, and_assoc]

theorem familyOf?_of_mem_glueFor {r : Response} {wants : Family → Bool} {ns a : String}
    (h : a ∈ r.glueFor wants ns)
    : ∃ f, familyOf? a = some f ∧ wants f = true := by
  obtain ⟨s, hs, ha⟩ := List.mem_flatMap.1 h
  have hwants := (List.mem_filter.1 hs).2
  rcases Content.family_of_mem_addresses ha with ⟨-, hf, hread⟩ | ⟨-, hf, hread⟩
  · exact ⟨.ipv4, hread, by simp_all⟩
  · exact ⟨.ipv6, hread, by simp_all⟩

end Response

end NameserverAudit
