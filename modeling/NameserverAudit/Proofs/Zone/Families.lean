import NameserverAudit.Proofs.Address.Reading
import NameserverAudit.Zone.Directory

/-! The families of a directory's addresses. A directory that was read from zone text keeps
every address as the presentation form of an address of the family that it is listed under,
and the servers that it gives have only addresses of the families that are asked for.
-/

namespace NameserverAudit

/-- The text is the presentation form of an address of a family. -/
def Presents (f : Family) (text : String) : Prop :=
  ∃ a : Address, a.family = f ∧ a.presentation = text

theorem Presents.familyOf? {f : Family} {text : String} (h : Presents f text)
    : familyOf? text = some f := by
  obtain ⟨a, rfl, rfl⟩ := h
  exact a.familyOf?_presentation

namespace Zone

theorem Delegation.familyOf_eq {f : Family} {text : String} (h : Presents f text)
    : familyOf text = f := by
  obtain ⟨a, rfl, rfl⟩ := h
  cases a with
  | v4 a =>
      have hcolon : ':' ∉ a.chars := fun h => by
        rcases Ipv4.mem_chars h with h | h
        · exact absurd h (by decide)
        · exact absurd h (by decide)
      simp [familyOf, Address.presentation, Ipv4.text, hcolon, Address.family]
  | v6 a scope =>
      simp [familyOf, Address.presentation, a.presentationChars_signs.1, Address.family]

-----------------------------------------------------------------------------------------
-- Directories that were read
-----------------------------------------------------------------------------------------

/-- The addresses of an owner are listed under their families. -/
def Addresses.Listed (a : Addresses) : Prop :=
  (∀ text ∈ a.ipv4, Presents .ipv4 text) ∧ ∀ text ∈ a.ipv6, Presents .ipv6 text

theorem Addresses.Listed.into {a : Addresses} (h : a.Listed) (address : Address)
    : (addAddress.into a address).Listed := by
  have new : Presents address.family address.presentation := ⟨address, rfl, rfl⟩
  unfold addAddress.into
  cases hfamily : address.family
  all_goals rw [hfamily] at new
  · refine ⟨fun text ht => ?_, h.2⟩
    rcases TextSet.mem_insert.1 ht with rfl | ht
    · exact new
    · exact h.1 text ht
  · refine ⟨h.1, ?_⟩
    intro text ht
    rcases TextSet.mem_insert.1 ht with rfl | ht
    · exact new
    · exact h.2 text ht

/-- One more address is listed under its family, by induction on the owners. -/
theorem addAddress_listed {all : List Addresses} (owner : String) (address : Address)
    (h : ∀ a ∈ all, a.Listed)
    : ∀ a ∈ addAddress owner address all, a.Listed := by
  induction all with
  | nil =>
      have none : (⟨owner, .empty, .empty⟩ : Addresses).Listed := ⟨by simp, by simp⟩
      intro a ha
      rw [List.mem_singleton.1 ha]
      exact none.into address
  | cons first rest ih =>
      have hfirst := h first (by simp)
      have hrest := fun a ha => h a (List.mem_cons_of_mem first ha)
      intro a ha
      simp only [addAddress] at ha
      split at ha
      · rcases List.mem_cons.1 ha with rfl | ha
        · exact hfirst.into address
        · exact hrest a ha
      · rcases List.mem_cons.1 ha with rfl | ha
        · exact hfirst
        · exact ih hrest a ha

/-- The addresses of all owners are listed under their families, by induction on the records. -/
theorem addressesOf_listed (rs : List Record) : ∀ a ∈ addressesOf rs, a.Listed := by
  refine List.foldlRecOn (motive := fun out : List Addresses => ∀ a ∈ out, a.Listed) rs _
    (by simp) fun out h r _ => ?_
  split
  · exact addAddress_listed _ _ h
  · exact h

/-- All addresses of a directory are listed under their families. -/
structure Directory.Listed (d : Directory) : Prop where
  roots : ∀ r ∈ d.roots, ∀ f, ∀ text ∈ r.addresses f, Presents f text
  glue : ∀ e ∈ d.delegations, ∀ ns, ∀ text ∈ e.glueOf ns, ∃ f, Presents f text

theorem Directory.ofRecords_listed (rs : List Record) : (ofRecords rs).Listed := by
  have listed := addressesOf_listed (byOwner rs.length rs)
  have at_owner {owner : String} {a : Addresses}
      (h : addressesAt (addressesOf (byOwner rs.length rs)) owner = some a)
      : a.Listed :=
    listed a (List.mem_of_find?_eq_some h)
  constructor
  · intro r hr f text ht
    obtain ⟨name, -, hname⟩ := List.mem_filterMap.1 hr
    obtain ⟨a, ha, rfl⟩ := Option.map_eq_some_iff.1 hname
    cases f with
    | ipv4 => exact (at_owner ha).1 text ht
    | ipv6 => exact (at_owner ha).2 text ht
  · intro e he ns text ht
    obtain ⟨n, -, rfl⟩ := List.mem_map.1 he
    unfold Delegation.glueOf at ht
    split at ht
    · next entry hentry =>
      obtain ⟨target, -, htarget⟩ := List.mem_filterMap.1 (List.mem_of_find?_eq_some hentry)
      obtain ⟨a, ha, rfl⟩ := Option.map_eq_some_iff.1 htarget
      rcases List.mem_append.1 ht with ht | ht
      · exact ⟨.ipv4, (at_owner ha).1 text ht⟩
      · exact ⟨.ipv6, (at_owner ha).2 text ht⟩
    · simp at ht

/-- A directory of zone text is that of its records, which name a root server with an address. -/
theorem Directory.exists_records {reader : Reader} {source text : String} {d : Directory}
    (h : (ofTextBy reader source text).directory = .ok d)
    : ∃ rs,
        reader (withTtl text.toList) = .ok rs
        ∧ d.roots.isEmpty = false
        ∧ d = ofRecords rs := by
  unfold ofTextBy Reading.ofRecords at h
  split at h
  · cases h
  · next rs read =>
    dsimp only at h
    split at h
    · cases h
    · next filled =>
      obtain rfl := Except.ok.inj h
      exact ⟨rs, read, by simpa using filled, rfl⟩

/-- The addresses of a directory that was read are listed under their families. -/
theorem Directory.read_listed {reader : Reader} {source text : String} {d : Directory}
    (h : (ofTextBy reader source text).directory = .ok d)
    : d.Listed := by
  obtain ⟨rs, -, -, rfl⟩ := exists_records h
  exact ofRecords_listed rs

-----------------------------------------------------------------------------------------
-- The servers that a directory gives
-----------------------------------------------------------------------------------------

/-- A server of a root server has its name and one of its addresses, of a wanted family, by
induction on the families.
-/
theorem RootServer.mem_servers {r : RootServer} {families : List FamilyName}
    {servers : List Server} {s : Server} (h : r.servers families = .ok servers)
    (hs : s ∈ servers)
    : s.name = r.name ∧ ∃ f, .known f ∈ families ∧ s.address ∈ r.addresses f := by
  induction families generalizing servers with
  | nil =>
      rw [← Except.ok.inj h] at hs
      simp at hs
  | cons family rest ih =>
      cases family with
      | other name => simp [RootServer.servers] at h
      | known f =>
          simp only [RootServer.servers] at h
          split at h
          · cases h
          · next more hmore =>
            rw [← Except.ok.inj h] at hs
            rcases List.mem_append.1 hs with hs | hs
            · obtain ⟨address, haddress, rfl⟩ := List.mem_map.1 hs
              exact ⟨rfl, f, by simp, haddress⟩
            · obtain ⟨hname, f', hf', haddress⟩ := ih hmore hs
              exact ⟨hname, f', List.mem_cons_of_mem _ hf', haddress⟩

/-- A server of several root servers is one of a single one, by induction on them. -/
theorem Directory.mem_serversOf {families : List FamilyName} {roots : List RootServer}
    {servers : List Server} {s : Server} (h : serversOf families roots = .ok servers)
    (hs : s ∈ servers)
    : ∃ r ∈ roots, s.name = r.name ∧ ∃ f, .known f ∈ families ∧ s.address ∈ r.addresses f := by
  induction roots generalizing servers with
  | nil =>
      rw [← Except.ok.inj h] at hs
      simp at hs
  | cons r rest ih =>
      simp only [serversOf] at h
      split at h
      · cases h
      · next front hfront =>
        split at h
        · cases h
        · next more hmore =>
          rw [← Except.ok.inj h] at hs
          rcases List.mem_append.1 hs with hs | hs
          · exact ⟨r, by simp, RootServer.mem_servers hfront hs⟩
          · obtain ⟨r', hr', hfound⟩ := ih hmore hs
            exact ⟨r', List.mem_cons_of_mem r hr', hfound⟩

/-- A server of a directory's root servers has the name and an address of one of them, and the
address is of a wanted family.
-/
theorem Directory.mem_servers {d : Directory} {families : List FamilyName}
    {servers : List Server} {s : Server} (h : d.servers families = .ok servers)
    (hs : s ∈ servers)
    : ∃ r ∈ d.roots,
        s.name = r.name ∧ ∃ f, .known f ∈ families ∧ s.address ∈ r.addresses f := by
  obtain ⟨r, hr, hfound⟩ := mem_serversOf h hs
  exact ⟨r, (List.mergeSort_perm _ _).mem_iff.1 hr, hfound⟩

/-- A server of a delegation has an address known for a nameserver, of a wanted family. -/
theorem Delegation.mem_servers {e : Delegation} {families : List FamilyName} {s : Server}
    (hs : s ∈ e.servers families)
    : s.address ∈ e.glueOf s.name ∧ .known (familyOf s.address) ∈ families := by
  obtain ⟨ns, -, hs⟩ := List.mem_flatMap.1 hs
  obtain ⟨address, haddress, rfl⟩ := List.mem_map.1 hs
  obtain ⟨hglue, hfamily⟩ := List.mem_filter.1 haddress
  exact ⟨hglue, by simpa using hfamily⟩

/-- A delegation that covers a domain is one of the directory's, by induction on the labels. -/
theorem Directory.mem_of_covering {d : Directory} {labels : List (List Char)} {e : Delegation}
    (h : d.covering labels = some e)
    : e ∈ d.delegations := by
  induction labels with
  | nil => simp [covering] at h
  | cons label rest ih =>
      simp only [covering] at h
      split at h
      · next found hfound =>
        rw [← Option.some.inj h]
        exact List.mem_of_find?_eq_some hfound
      · exact ih h

end Zone

end NameserverAudit
