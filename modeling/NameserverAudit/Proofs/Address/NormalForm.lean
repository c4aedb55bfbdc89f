import NameserverAudit.Proofs.Address.Grammar
import NameserverAudit.Proofs.Verdict.Exact

/-! The canonical text of a literal is a normal form. An address is its family, the number that
its bits make, and its scope. Main statement: the canonical text writes the address that the
literal writes, is canonical itself, and is the same for two literals just if they write one
address.
-/

namespace NameserverAudit

open Text

-----------------------------------------------------------------------------------------
-- Addresses as numbers
-----------------------------------------------------------------------------------------

/-- The number of 32 bits whose bytes these are, the highest one first. -/
def Ipv4.number (a : Ipv4) : Nat :=
  Nat.ofDigits (2 ^ 8) (a.bytes.map UInt8.toNat).reverse

/-- The number of 128 bits whose groups these are, the highest one first. -/
def Ipv6.number (a : Ipv6) : Nat :=
  Nat.ofDigits (2 ^ 16) (a.groups.map UInt16.toNat).reverse

namespace Address

def number : Address → Nat
  | .v4 a => a.number
  | .v6 a _ => a.number

def scope : Address → Option String
  | .v4 _ => none
  | .v6 _ scope => scope

end Address

/-- Lists of one length are the same if their items are the digits of one number. -/
theorem eq_of_ofDigits_eq {α : Type} {f : α → Nat} {base : Nat} {xs ys : List α}
    (large : 1 < base) (bound : ∀ x, f x < base) (injective : Function.Injective f)
    (length : xs.length = ys.length)
    (h : Nat.ofDigits base (xs.map f).reverse = Nat.ofDigits base (ys.map f).reverse)
    : xs = ys := by
  have digits (xs : List α) : ∀ d ∈ (xs.map f).reverse, d < base := by
    simpa using fun x _ => bound x
  have same : (xs.map f).reverse = (ys.map f).reverse :=
    Nat.ofDigits_inj_of_len_eq large (by simp [length]) (digits xs) (digits ys) h
  exact List.map_injective_iff.2 injective (List.reverse_injective same)

theorem Ipv4.number_injective : Function.Injective Ipv4.number := by
  rintro ⟨bytes, length⟩ ⟨bytes', length'⟩ h
  obtain rfl := eq_of_ofDigits_eq (by decide) UInt8.toNat_lt (fun _ _ => UInt8.toNat_inj.1)
    (length.trans length'.symm) h
  rfl

theorem Ipv6.number_injective : Function.Injective Ipv6.number := by
  rintro ⟨groups, length⟩ ⟨groups', length'⟩ h
  obtain rfl := eq_of_ofDigits_eq (by decide) UInt16.toNat_lt (fun _ _ => UInt16.toNat_inj.1)
    (length.trans length'.symm) h
  rfl

/-- Addresses are the same if nothing tells them apart. -/
theorem Address.eq_iff {a b : Address}
    : a = b ↔ a.family = b.family ∧ a.number = b.number ∧ a.scope = b.scope := by
  constructor
  · rintro rfl
    exact ⟨rfl, rfl, rfl⟩
  · rintro ⟨family, number, scope⟩
    cases a with
    | v4 a =>
        cases b with
        | v4 b => rw [Ipv4.number_injective number]
        | v6 b _ => cases family
    | v6 a _ =>
        cases b with
        | v4 b => cases family
        | v6 b _ =>
            rw [Ipv6.number_injective number]
            exact congrArg _ scope

-----------------------------------------------------------------------------------------
-- Normal forms
-----------------------------------------------------------------------------------------

/-- A literal is a text that writes an address when the blanks around it are gone. -/
theorem isLiteralOf_iff_writes {raw : String} {a : Address}
    : IsLiteralOf raw a ↔ Address.Writes (trim raw.toList) a := by
  rw [IsLiteralOf, Address.ofText?, strip, String.toList_ofList, Address.ofChars?_eq_some_iff]

namespace Address

theorem Writes.unique {cs : List Char} {a b : Address} (ha : Writes cs a) (hb : Writes cs b)
    : a = b := by
  rw [← ofChars?_eq_some_iff] at ha hb
  exact Option.some.inj (ha.symm.trans hb)

/-- The canonical text of an address that can be written writes it. -/
theorem Writes.text {cs : List Char} {a : Address} (h : Writes cs a) : Writes a.text.toList a :=
  ofChars?_eq_some_iff.1
    (ofText?_text_of_wellScoped (wellScoped_of_read (ofChars?_eq_some_iff.2 h)))

/-- The canonical text has no blanks around it if the text has none: the scope, which may have
blanks in it, is at the end of both.
-/
theorem Writes.trim_text {cs : List Char} {a : Address} (h : Writes cs a)
    (last : ∀ c, cs.getLast? = some c → isBlank c = false)
    : trim a.text.toList = a.text.toList := by
  have plain (a : Address) : trim a.unscoped.text.toList = a.unscoped.text.toList :=
    trim_of_ends (fun c hc => isBlank_of_mem_text (List.mem_of_mem_head? hc))
      (fun c hc => isBlank_of_mem_text (List.mem_of_getLast? hc))
  cases h with
  | v4 a => exact plain (.v4 a)
  | @v6 _ a written => exact plain (.v6 a none)
  | @v6Scoped _ a scope written nonempty no_sign =>
      rw [toList_text_scoped, String.toList_ofList]
      apply trim_of_ends
      · intro c hc
        have some_chars : a.chars ≠ [] := List.ne_nil_of_mem a.chars_signs.1
        rw [List.head?_append_of_ne_nil _ some_chars] at hc
        exact Ipv6.isBlank_of_mem_chars (List.mem_of_mem_head? hc)
      · intro c hc
        rw [List.getLast?_append_of_ne_nil _ (by simp)] at hc last
        exact last c hc

/-- Two literals have one canonical text just if they write one address. -/
theorem text_eq_iff {cs ds : List Char} {a b : Address} (ha : Writes cs a) (hb : Writes ds b)
    : a.text = b.text ↔ a = b :=
  ⟨eq_of_text_eq (wellScoped_of_read (ofChars?_eq_some_iff.2 ha))
      (wellScoped_of_read (ofChars?_eq_some_iff.2 hb)),
    congrArg text⟩

/-- What is accepted writes one address, its canonical text writes the same one and is canonical
itself, and both have the family of the address. Every other text that writes an address is
accepted too, and has the same canonical text just if neither the families nor the numbers nor
the scopes of the addresses differ.
-/
theorem canonicalAddress_normal {x s : String} (accepted : canonicalAddress x = .ok s)
    : ∃ a,
        (∀ b, Writes (trim x.toList) b ↔ b = a)
        ∧ (∀ b, Writes s.toList b ↔ b = a)
        ∧ familyOf? (strip x) = some a.family ∧ familyOf? s = some a.family
        ∧ canonicalAddress s = .ok s
        ∧ ∀ y b, Writes (trim y.toList) b →
            ∃ t,
              canonicalAddress y = .ok t
              ∧ (s = t ↔ a.family = b.family ∧ a.number = b.number ∧ a.scope = b.scope) := by
  obtain ⟨a, literal, rfl⟩ := canonicalAddress_eq_ok_iff_exists.1 accepted
  have written := isLiteralOf_iff_writes.1 literal
  have reads : ofText? a.text = some a := ofChars?_eq_some_iff.2 written.text
  have trimmed : trim a.text.toList = a.text.toList :=
    written.trim_text fun _ => getLast?_dropRightWhile
  refine ⟨a, ?_, ?_, ?_, ?_, ?_, ?_⟩
  · exact fun b => ⟨fun h => h.unique written, fun h => h ▸ written⟩
  · exact fun b => ⟨fun h => h.unique written.text, fun h => h ▸ written.text⟩
  · have : ofText? (strip x) = some a := literal
    rw [familyOf?, this, Option.map_some]
  · rw [familyOf?, reads, Option.map_some]
  · have itself : IsLiteralOf a.text a := by
      rw [isLiteralOf_iff_writes, trimmed]
      exact written.text
    exact canonicalAddress_eq_ok_iff_exists.2 ⟨a, itself, rfl⟩
  · intro y b hb
    refine ⟨b.text, canonicalAddress_eq_ok_iff_exists.2
      ⟨b, isLiteralOf_iff_writes.2 hb, rfl⟩, ?_⟩
    rw [text_eq_iff written hb, eq_iff]

/-- Witness: an address in capital letters, with zeros in front of groups, an address of version 4
at its end and blanks around it, and another spelling of it. The third text differs in its scope
alone.
-/
theorem canonicalAddress_normal_mapped
    : canonicalAddress " 2001:0DB8:0:0:0:0:1.2.3.4%eth0\t" = .ok "2001:db8::102:304%eth0"
      ∧ canonicalAddress "2001:db8::102:304%eth0" = .ok "2001:db8::102:304%eth0"
      ∧ familyOf? "2001:db8::102:304%eth0" = some .ipv6
      ∧ canonicalAddress "2001:DB8::0102:304%eth0" = .ok "2001:db8::102:304%eth0"
      ∧ canonicalAddress "2001:db8::1.2.3.4" ≠ .ok "2001:db8::102:304%eth0" := by
  have accepted : canonicalAddress " 2001:0DB8:0:0:0:0:1.2.3.4%eth0\t"
      = .ok "2001:db8::102:304%eth0" := by
    decide +kernel
  obtain ⟨a, written, -, -, family, fixed, others⟩ := canonicalAddress_normal accepted
  let b : Ipv6 := ⟨[0x2001, 0xdb8, 0, 0, 0, 0, 0x102, 0x304], rfl⟩
  have read : Writes (trim " 2001:0DB8:0:0:0:0:1.2.3.4%eth0\t".toList) (.v6 b (some "eth0")) :=
    ofChars?_eq_some_iff.1 (by decide +kernel)
  obtain rfl := (written _).1 read
  have respelled : Writes (trim "2001:DB8::0102:304%eth0".toList) (.v6 b (some "eth0")) :=
    ofChars?_eq_some_iff.1 (by decide +kernel)
  have unscoped : Writes (trim "2001:db8::1.2.3.4".toList) (.v6 b none) :=
    ofChars?_eq_some_iff.1 (by decide +kernel)
  obtain ⟨t, ht, same⟩ := others _ _ respelled
  obtain ⟨u, hu, differs⟩ := others _ _ unscoped
  refine ⟨accepted, fixed, family, ?_, ?_⟩
  · rw [ht, ← same.2 ⟨rfl, rfl, rfl⟩]
  · rw [hu]
    intro h
    have scopes := (differs.1 (Except.ok.inj h).symm).2.2
    cases scopes

end Address

end NameserverAudit
