import Mathlib.Data.List.Forall2
import NameserverAudit.Auditor
import NameserverAudit.Proofs.Verdict.Exact

/-! Which values are domain lists. An entry is an object with a host-style domain and with texts,
or nothing, on each of its axes. Main statement: a value is read just if it is an array of such
entries, and then entry by entry; any other value is refused for its first offending entry.
-/

namespace NameserverAudit

open Text

-----------------------------------------------------------------------------------------
-- Lists of texts
-----------------------------------------------------------------------------------------

/-- A list of values is a list of texts just if it is made of them, by induction on it. -/
theorem Json.strings?_eq_some_iff {items : List Json} {xs : List String}
    : strings? items = some xs ↔ items = xs.map .str := by
  unfold strings?
  induction items generalizing xs with
  | nil => cases xs <;> simp
  | cons v rest ih =>
      cases v with
      | str s =>
          cases xs with
          | nil => simp [Option.bind_eq_some_iff]
          | cons x xs =>
              simp only [List.mapM_cons, Option.bind_eq_bind, Option.bind_some,
                Option.bind_eq_some_iff, ih, Option.pure_def, Option.some.injEq,
                List.cons.injEq, List.map_cons, str.injEq]
              grind
      | null | bool _ | int _ | float _ | array _ | object _ => cases xs <;> simp

theorem canonicalAddress_eq_error_iff {raw refusal : String}
    : canonicalAddress raw = .error refusal
      ↔ (∀ a, ¬IsLiteralOf raw a) ∧ refusal = notAnAddress (quoted (strip raw)) := by
  unfold canonicalAddress canonicalAddress? IsLiteralOf
  cases Address.ofText? (strip raw) <;> simp [eq_comm]

namespace Expected

/-- The first of some texts that is no literal, and the refusal of it. -/
inductive FirstNoLiteral : List String → String → Prop
  | intro {front : List String} {raw : String} {rest : List String}
    (literals : ∀ text ∈ front, ∃ a, IsLiteralOf text a) (other : ∀ a, ¬IsLiteralOf raw a)
    : FirstNoLiteral (front ++ raw :: rest) (notAnAddress (quoted (strip raw)))

/-- Texts are refused for the first of them that is no literal, by induction on them. -/
theorem canonicalAddresses_eq_error_iff {xs : List String} {refusal : String}
    : canonicalAddresses xs = .error refusal ↔ FirstNoLiteral xs refusal := by
  constructor
  · intro h
    induction xs with
    | nil => cases h
    | cons first rest ih =>
        simp only [canonicalAddresses] at h
        split at h
        · next refusal' refused =>
          obtain rfl : refusal' = refusal := Except.error.inj h
          obtain ⟨other, rfl⟩ := canonicalAddress_eq_error_iff.1 refused
          exact @FirstNoLiteral.intro [] first rest (by simp) other
        · next s read =>
          split at h
          · next refusal' refused =>
            obtain rfl : refusal' = refusal := Except.error.inj h
            obtain ⟨a, ha, -⟩ := canonicalAddress_eq_ok_iff_exists.1 read
            cases ih refused with
            | @intro front raw rest literals other =>
                have literals' : ∀ text ∈ first :: front, ∃ b, IsLiteralOf text b := by
                  simpa using ⟨⟨a, ha⟩, literals⟩
                exact FirstNoLiteral.intro literals' other
          · cases h
  · rintro ⟨literals, other⟩
    rename_i front raw rest
    induction front with
    | nil =>
        have refused := canonicalAddress_eq_error_iff.2 ⟨other, rfl⟩
        simp only [List.nil_append, canonicalAddresses, refused]
    | cons first more ih =>
        obtain ⟨a, ha⟩ := literals first (by simp)
        have read := canonicalAddress_eq_ok_iff_exists.2 ⟨a, ha, rfl⟩
        have refused := ih fun text htext => literals text (List.mem_cons_of_mem _ htext)
        simp only [List.cons_append, canonicalAddresses, read, refused]

theorem create_eq_error_iff {domain : String} {names addresses : Option (List String)}
    {fault : ListFault}
    : create domain names addresses = .error fault
      ↔ ∃ xs refusal, addresses = some xs ∧ FirstNoLiteral xs refusal
        ∧ fault = .badAddress domain refusal := by
  cases addresses with
  | none => simp [create]
  | some xs =>
      simp only [create, Option.some.injEq, exists_and_left, exists_eq_left',
        ← canonicalAddresses_eq_error_iff]
      cases canonicalAddresses xs <;> simp [eq_comm]

-----------------------------------------------------------------------------------------
-- Axes
-----------------------------------------------------------------------------------------

/-- What an entry gives for an axis: nothing if it is missing or null, and otherwise texts, of
which there may be none.
-/
inductive HasAxis (entry : Json) (key : String) : Option (List String) → Prop
  | missing (h : entry.field? key = none) : HasAxis entry key none
  | null (h : entry.field? key = some .null) : HasAxis entry key none
  | listed {xs : List String} (h : entry.field? key = some (Json.ofStrings xs))
    : HasAxis entry key (some xs)

variable {domain key : String} {entry : Json}

theorem axis_eq_ok_iff {xs : Option (List String)}
    : axis domain key entry = .ok xs ↔ HasAxis entry key xs := by
  constructor
  · intro h
    unfold axis at h
    split at h
    · next missing => exact Except.ok.inj h ▸ .missing missing
    · next null => exact Except.ok.inj h ▸ .null null
    · next items listed =>
      split at h
      · next texts htexts =>
        obtain rfl := Json.strings?_eq_some_iff.1 htexts
        exact Except.ok.inj h ▸ .listed listed
      · cases h
    · cases h
  · rintro (missing | null | listed)
    · simp only [axis, missing]
    · simp only [axis, null]
    · next texts =>
      simp only [axis, listed, Json.ofStrings, Json.strings?_eq_some_iff.2 rfl]

/-- An axis has one fault only, that it is neither nothing nor a list of texts. -/
theorem axis_eq_error_iff {fault : ListFault}
    : axis domain key entry = .error fault
      ↔ (∀ xs, ¬HasAxis entry key xs) ∧ fault = .badAxis domain key := by
  have one_fault {fault : ListFault} (h : axis domain key entry = .error fault)
      : fault = .badAxis domain key := by
    unfold axis at h
    split at h
    · cases h
    · cases h
    · split at h
      · cases h
      · exact (Except.error.inj h).symm
    · exact (Except.error.inj h).symm
  cases read : axis domain key entry with
  | ok xs =>
      have given := axis_eq_ok_iff.1 read
      simp only [reduceCtorEq, false_iff]
      exact fun h => h.1 xs given
  | error fault' =>
      have none_given : ∀ xs, ¬HasAxis entry key xs := fun xs given => by
        rw [axis_eq_ok_iff.2 given] at read
        cases read
      rw [one_fault read, Except.error.injEq]
      exact ⟨fun h => ⟨none_given, h.symm⟩, fun h => h.2.symm⟩

-----------------------------------------------------------------------------------------
-- Entries
-----------------------------------------------------------------------------------------

/-- An entry of a domain list, with the texts that it gives: an object whose domain is a text and
host-style, and whose addresses are literals.
-/
structure Gives (entry : Json) (raw : String) (ns ip : Option (List String)) : Prop where
  object : ∃ fields, entry = .object fields
  domain : entry.field? "domain_name" = some (.str raw)
  hostStyle : ∃ host, Host.domain? raw = some host
  names : HasAxis entry "ns" ns
  addresses : HasAxis entry "ip" ip
  literals : ∀ xs, ip = some xs → ∀ text ∈ xs, ∃ a, IsLiteralOf text a

def WellFormed (entry : Json) : Prop :=
  ∃ raw ns ip, Gives entry raw ns ip

/-- The members of the set are the forms of the texts. -/
def Collects (form : String → String → Prop) (texts : List String) (set : TextSet) : Prop :=
  ∀ s, s ∈ set ↔ ∃ raw ∈ texts, form raw s

/-- The entry is well-formed, and this is what it says is expected: of the same domain, on the
same axes, the names and the literals in canonical form.
-/
def Denotes (entry : Json) (e : Expected) : Prop :=
  ∃ raw ns ip,
    Gives entry raw ns ip
    ∧ Host.domain? raw = some e.domain
    ∧ Option.Rel (Collects fun raw s => canonicalName raw = s) ns e.nameservers
    ∧ Option.Rel (Collects fun raw s => ∃ a, IsLiteralOf raw a ∧ a.text = s) ip e.addresses

/-- What is wrong with an entry that is not well-formed, and the fault that tells of it. Of
several things the first one counts, in the order in which they stand here.
-/
inductive Offends (number : Nat) (entry : Json) : ListFault → Prop
  | notAnObject (other : ∀ fields, entry ≠ .object fields)
    : Offends number entry (.notAnObject number)
  | noDomain (object : ∃ fields, entry = .object fields)
    (other : ∀ raw, entry.field? "domain_name" ≠ some (.str raw))
    : Offends number entry (.noDomain number)
  | badDomain {raw : String} (given : entry.field? "domain_name" = some (.str raw))
    (other : Host.domain? raw = none)
    : Offends number entry (.badDomain raw)
  | badNames {raw host : String} (given : entry.field? "domain_name" = some (.str raw))
    (hostStyle : Host.domain? raw = some host) (other : ∀ ns, ¬HasAxis entry "ns" ns)
    : Offends number entry (.badAxis host "ns")
  | badAddresses {raw host : String} {ns : Option (List String)}
    (given : entry.field? "domain_name" = some (.str raw))
    (hostStyle : Host.domain? raw = some host) (names : HasAxis entry "ns" ns)
    (other : ∀ ip, ¬HasAxis entry "ip" ip)
    : Offends number entry (.badAxis host "ip")
  | badAddress {raw host refusal : String} {ns : Option (List String)} {xs : List String}
    (given : entry.field? "domain_name" = some (.str raw))
    (hostStyle : Host.domain? raw = some host) (names : HasAxis entry "ns" ns)
    (addresses : HasAxis entry "ip" (some xs)) (other : FirstNoLiteral xs refusal)
    : Offends number entry (.badAddress host refusal)

variable {number : Nat} {e : Expected} {fault : ListFault}

theorem exists_object_of_field? {v : Json} (h : entry.field? key = some v)
    : ∃ fields, entry = .object fields := by
  cases entry with
  | object fields => exact ⟨fields, rfl⟩
  | _ => cases h

/-- An entry with a host-style domain is read axis by axis, and then its literals are. -/
theorem ofEntry_of_domain {raw host : String}
    (given : entry.field? "domain_name" = some (.str raw))
    (hostStyle : Host.domain? raw = some host)
    : ofEntry number entry = (do
        let ns ← axis host "ns" entry
        let ip ← axis host "ip" entry
        create host ns ip) := by
  obtain ⟨fields, rfl⟩ := exists_object_of_field? given
  simp only [ofEntry, given, hostStyle]
  cases axis host "ns" (.object fields) with
  | error fault => rfl
  | ok ns => cases axis host "ip" (.object fields) <;> rfl

/-- A set collects the forms of texts just if it is the set of their forms, on an axis that may
be left out.
-/
theorem rel_collects_iff {form : String → String → Prop} {f : String → String}
    {texts : Option (List String)} {set : Option TextSet}
    (agree : ∀ xs, texts = some xs → ∀ raw ∈ xs, ∀ s, form raw s ↔ f raw = s)
    : Option.Rel (Collects form) texts set
      ↔ set = texts.map fun xs => TextSet.ofList (xs.map f) := by
  have members {xs : List String} (h : texts = some xs) (s : String)
      : s ∈ TextSet.ofList (xs.map f) ↔ ∃ raw ∈ xs, form raw s := by
    rw [TextSet.mem_ofList_map]
    exact exists_congr fun raw => and_congr_right fun hraw => (agree xs h raw hraw s).symm
  constructor
  · rintro (collects | -)
    · next xs set =>
      exact congrArg some (TextSet.ext fun s => (collects s).trans (members rfl s).symm)
    · rfl
  · rintro rfl
    cases texts with
    | none => exact .none
    | some xs => exact .some (members rfl)

theorem create_eq_ok_iff_collects {host : String} {ns ip : Option (List String)}
    : create host ns ip = .ok e
      ↔ (∀ xs, ip = some xs → ∀ text ∈ xs, ∃ a, IsLiteralOf text a)
        ∧ host = e.domain
        ∧ Option.Rel (Collects fun raw s => canonicalName raw = s) ns e.nameservers
        ∧ Option.Rel (Collects fun raw s => ∃ a, IsLiteralOf raw a ∧ a.text = s) ip
          e.addresses := by
  rw [create_eq_ok_iff]
  refine and_congr_right fun literals => ?_
  have canonical (xs : List String) (hxs : ip = some xs) (raw : String) (hraw : raw ∈ xs)
      (s : String)
      : (∃ a, IsLiteralOf raw a ∧ a.text = s) ↔ Verdict.publishedAddress raw = s := by
    obtain ⟨a, ha⟩ := literals xs hxs raw hraw
    rw [ha.publishedAddress_eq]
    constructor
    · rintro ⟨b, hb, rfl⟩
      rw [ha.unique hb]
    · exact fun h => ⟨a, ha, h⟩
  rw [rel_collects_iff canonical, rel_collects_iff fun _ _ _ _ _ => Iff.rfl]
  obtain ⟨domain, nameservers, addresses⟩ := e
  simp [eq_comm]

/-- An entry is read just if it is well-formed, and then as what it denotes. -/
theorem ofEntry_eq_ok_iff : ofEntry number entry = .ok e ↔ Denotes entry e := by
  constructor
  · intro h
    unfold ofEntry at h
    split at h
    · next fields =>
      split at h
      · next raw given =>
        split at h
        · cases h
        · next host hostStyle =>
          split at h
          · cases h
          · cases h
          · next ns ip names addresses =>
            obtain ⟨literals, rfl, sets⟩ := create_eq_ok_iff_collects.1 h
            exact ⟨raw, ns, ip,
              ⟨⟨fields, rfl⟩, given, ⟨_, hostStyle⟩, axis_eq_ok_iff.1 names,
                axis_eq_ok_iff.1 addresses, literals⟩,
              hostStyle, sets⟩
      · cases h
    · cases h
  · rintro ⟨raw, ns, ip, gives, hostStyle, sets⟩
    have names : axis e.domain "ns" entry = .ok ns := axis_eq_ok_iff.2 gives.names
    have addresses : axis e.domain "ip" entry = .ok ip := axis_eq_ok_iff.2 gives.addresses
    have created : create e.domain ns ip = .ok e :=
      create_eq_ok_iff_collects.2 ⟨gives.literals, rfl, sets⟩
    rw [ofEntry_of_domain gives.domain hostStyle, names, addresses]
    exact created

/-- Some expectation is read from an entry just if the entry is well-formed. -/
theorem exists_ofEntry_iff : (∃ e, ofEntry number entry = .ok e) ↔ WellFormed entry := by
  constructor
  · rintro ⟨e, h⟩
    obtain ⟨raw, ns, ip, gives, -⟩ := ofEntry_eq_ok_iff.1 h
    exact ⟨raw, ns, ip, gives⟩
  · rintro ⟨raw, ns, ip, gives⟩
    obtain ⟨host, hostStyle⟩ := gives.hostStyle
    have names : axis host "ns" entry = .ok ns := axis_eq_ok_iff.2 gives.names
    have addresses : axis host "ip" entry = .ok ip := axis_eq_ok_iff.2 gives.addresses
    rw [ofEntry_of_domain gives.domain hostStyle, names, addresses]
    exact ⟨_, create_eq_ok_iff.2 ⟨gives.literals, rfl⟩⟩

/-- An entry is refused for the first thing that is wrong with it. -/
theorem ofEntry_eq_error_iff
    : ofEntry number entry = .error fault ↔ Offends number entry fault := by
  constructor
  · intro refused
    have h := refused
    unfold ofEntry at h
    split at h
    · next fields =>
      split at h
      · next raw given =>
        split at h
        · next other =>
          obtain rfl := Except.error.inj h
          exact .badDomain given other
        · next host hostStyle =>
          rw [ofEntry_of_domain given hostStyle] at refused
          cases names : axis host "ns" (.object fields) with
          | error fault' =>
              rw [names] at refused
              obtain rfl : fault' = fault := Except.error.inj refused
              obtain ⟨other, rfl⟩ := axis_eq_error_iff.1 names
              exact .badNames given hostStyle other
          | ok ns =>
              cases addresses : axis host "ip" (.object fields) with
              | error fault' =>
                  rw [names, addresses] at refused
                  obtain rfl : fault' = fault := Except.error.inj refused
                  obtain ⟨other, rfl⟩ := axis_eq_error_iff.1 addresses
                  exact .badAddresses given hostStyle (axis_eq_ok_iff.1 names) other
              | ok ip =>
                  rw [names, addresses] at refused
                  obtain ⟨xs, refusal, rfl, other, rfl⟩ := create_eq_error_iff.1 refused
                  exact .badAddress given hostStyle (axis_eq_ok_iff.1 names)
                    (axis_eq_ok_iff.1 addresses) other
      · next other =>
        obtain rfl := Except.error.inj h
        exact .noDomain ⟨fields, rfl⟩ other
    · next other =>
      obtain rfl := Except.error.inj h
      exact .notAnObject other
  · intro offends
    cases offends with
    | notAnObject other =>
        cases entry with
        | object fields => exact absurd rfl (other fields)
        | _ => rfl
    | noDomain object other =>
        obtain ⟨fields, rfl⟩ := object
        simp only [ofEntry]
    | badDomain given other =>
        obtain ⟨fields, rfl⟩ := exists_object_of_field? given
        simp only [ofEntry, given, other]
    | badNames given hostStyle other =>
        rw [ofEntry_of_domain given hostStyle, axis_eq_error_iff.2 ⟨other, rfl⟩]
        rfl
    | badAddresses given hostStyle names other =>
        rw [ofEntry_of_domain given hostStyle, axis_eq_ok_iff.2 names,
          axis_eq_error_iff.2 ⟨other, rfl⟩]
        rfl
    | badAddress given hostStyle names addresses other =>
        rw [ofEntry_of_domain given hostStyle, axis_eq_ok_iff.2 names,
          axis_eq_ok_iff.2 addresses]
        exact create_eq_error_iff.2 ⟨_, _, rfl, other, rfl⟩

-----------------------------------------------------------------------------------------
-- Lists
-----------------------------------------------------------------------------------------

/-- Entries are read one by one, by induction on them. -/
theorem ofEntries_eq_ok_iff {entries : List Json} {list : List Expected}
    : ofEntries number entries = .ok list ↔ List.Forall₂ Denotes entries list := by
  induction entries generalizing number list with
  | nil => cases list <;> simp [ofEntries]
  | cons entry rest ih =>
      cases first : ofEntry number entry with
      | error fault =>
          have refused (e : Expected) : ¬Denotes entry e := fun denotes => by
            rw [ofEntry_eq_ok_iff.2 denotes] at first
            cases first
          cases list <;> simp [ofEntries, first, refused]
      | ok e =>
          have denotes (e' : Expected) : Denotes entry e' ↔ e = e' := by
            rw [← ofEntry_eq_ok_iff, first, Except.ok.injEq]
          cases list with
          | nil => cases more : ofEntries (number + 1) rest <;> simp [ofEntries, first, more]
          | cons e' list =>
              rw [List.forall₂_cons, denotes, ← ih]
              cases more : ofEntries (number + 1) rest <;> simp [ofEntries, first, more]

/-- Entries are refused for the first of them that is not well-formed, by induction on them. -/
theorem ofEntries_eq_error_iff {entries : List Json}
    : ofEntries number entries = .error fault
      ↔ ∃ front entry rest, entries = front ++ entry :: rest
        ∧ (∀ before ∈ front, WellFormed before)
        ∧ Offends (number + front.length) entry fault := by
  induction entries generalizing number with
  | nil => simp [ofEntries]
  | cons first more ih =>
      cases read : ofEntry number first with
      | error fault' =>
          have ill_formed : ¬WellFormed first := fun h => by
            obtain ⟨e, he⟩ := exists_ofEntry_iff.2 h
            rw [he] at read
            cases read
          constructor
          · intro refused
            simp only [ofEntries, read] at refused
            obtain rfl := Except.error.inj refused
            exact ⟨[], first, more, rfl, by simp, ofEntry_eq_error_iff.1 read⟩
          · rintro ⟨front, entry, rest, split, fine, offends⟩
            cases front with
            | nil =>
                obtain ⟨rfl, rfl⟩ : first = entry ∧ more = rest := by simpa using split
                have refused : ofEntry number first = .error fault :=
                  ofEntry_eq_error_iff.2 offends
                simp only [ofEntries, refused]
            | cons before front =>
                obtain ⟨rfl, -⟩ : first = before ∧ more = front ++ entry :: rest := by
                  simpa using split
                exact absurd (fine first (by simp)) ill_formed
      | ok e =>
          have later : ofEntries number (first :: more) = .error fault
              ↔ ofEntries (number + 1) more = .error fault := by
            simp only [ofEntries, read]
            cases ofEntries (number + 1) more <;> simp
          rw [later, ih]
          constructor
          · rintro ⟨front, entry, rest, rfl, fine, offends⟩
            refine ⟨first :: front, entry, rest, rfl, ?_, ?_⟩
            · simpa using ⟨exists_ofEntry_iff.1 ⟨e, read⟩, fine⟩
            · rwa [List.length_cons, ← Nat.add_assoc, Nat.add_right_comm]
          · rintro ⟨front, entry, rest, split, fine, offends⟩
            cases front with
            | nil =>
                obtain ⟨rfl, rfl⟩ : first = entry ∧ more = rest := by simpa using split
                have refused : ofEntry number first = .error fault :=
                  ofEntry_eq_error_iff.2 offends
                rw [read] at refused
                cases refused
            | cons before front =>
                obtain ⟨rfl, rfl⟩ : first = before ∧ more = front ++ entry :: rest := by
                  simpa using split
                refine ⟨front, entry, rest, rfl, fun v hv => fine v (by simp [hv]), ?_⟩
                rwa [List.length_cons, ← Nat.add_assoc, Nat.add_right_comm] at offends

/-- A value that is refused is no array, or it is one with an entry that is not well-formed, and
the fault tells of the first such entry.
-/
inductive Refused (v : Json) : ListFault → Prop
  | notAnArray (other : ∀ entries, v ≠ .array entries) : Refused v .notAnArray
  | entry {front : List Json} {entry : Json} {rest : List Json} {fault : ListFault}
    (array : v = .array (front ++ entry :: rest)) (fine : ∀ before ∈ front, WellFormed before)
    (offends : Offends front.length entry fault)
    : Refused v fault

/-- Entries denote something just if each of them is well-formed, by induction on them. -/
theorem exists_denotes_iff {entries : List Json}
    : (∃ list, List.Forall₂ Denotes entries list) ↔ ∀ entry ∈ entries, WellFormed entry := by
  induction entries with
  | nil => simp
  | cons entry rest ih =>
      have one : (∃ e, Denotes entry e) ↔ WellFormed entry := by
        rw [← @exists_ofEntry_iff entry 0]
        exact exists_congr fun e => ofEntry_eq_ok_iff.symm
      rw [List.forall_mem_cons, ← ih, ← one]
      simp [List.forall₂_cons_left_iff]

/-- A value is read as a domain list exactly if it is an array of well-formed entries. The list
then has what each entry denotes, in order. Every other value is refused for its first offending
entry, with a fault that a run foresees.
-/
theorem ofJson_accepts_grammar (v : Json)
    : ((∃ list, ofJson v = .ok list)
        ↔ ∃ entries, v = .array entries ∧ ∀ entry ∈ entries, WellFormed entry)
      ∧ (∀ list, ofJson v = .ok list
          ↔ ∃ entries, v = .array entries ∧ List.Forall₂ Denotes entries list)
      ∧ (∀ fault, ofJson v = .error fault ↔ Refused v fault)
      ∧ ∀ fault, ofJson v = .error fault → (RunFault.list (.list fault)).isForeseen = true := by
  have read (list : List Expected)
      : ofJson v = .ok list
        ↔ ∃ entries, v = .array entries ∧ List.Forall₂ Denotes entries list := by
    cases v with
    | array entries => simp [ofJson, ofEntries_eq_ok_iff]
    | _ => simp [ofJson]
  refine ⟨?_, read, fun fault => ?_, fun fault _ => rfl⟩
  · constructor
    · rintro ⟨list, h⟩
      obtain ⟨entries, rfl, denote⟩ := (read list).1 h
      exact ⟨entries, rfl, exists_denotes_iff.1 ⟨list, denote⟩⟩
    · rintro ⟨entries, rfl, fine⟩
      obtain ⟨list, denote⟩ := exists_denotes_iff.2 fine
      exact ⟨list, (read list).2 ⟨entries, rfl, denote⟩⟩
  · constructor
    · intro h
      cases v with
      | array entries =>
          obtain ⟨front, entry, rest, rfl, fine, offends⟩ := ofEntries_eq_error_iff.1 h
          exact .entry rfl fine (by simpa using offends)
      | _ =>
          obtain rfl : ListFault.notAnArray = fault := Except.error.inj h
          exact .notAnArray (by simp)
    · rintro (other | ⟨rfl, fine, offends⟩)
      · cases v with
        | array entries => exact absurd rfl (other entries)
        | _ => rfl
      · exact ofEntries_eq_error_iff.2 ⟨_, _, _, rfl, fine, by simpa using offends⟩

/-- A missing axis is not expected of anything, and an empty one expects that there is nothing.
-/
example
    : ofJson
        (.array [
          .object [("domain_name", .str " Example.COM."), ("ns", .array []), ("ip", .null)],
          .object [("domain_name", .str "example.org"), ("ip", .array [.str "2001:DB8::1"])]])
      = .ok [
          ⟨"example.com", some .empty, none⟩,
          ⟨"example.org", none, some (.ofList ["2001:db8::1"])⟩] := by
  decide +kernel

end Expected

end NameserverAudit
