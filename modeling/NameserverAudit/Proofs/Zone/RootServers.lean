import NameserverAudit.Proofs.Name.Reading
import NameserverAudit.Proofs.Zone.Families

/-! The root servers of a directory that was read from zone text. Their names are in canonical
form, but their addresses are in presentation form, which for some addresses is another text.
-/

namespace NameserverAudit.Zone

-----------------------------------------------------------------------------------------
-- Nameservers
-----------------------------------------------------------------------------------------

/-- One more nameserver adds its name and no other one, by induction on the owners. -/
theorem mem_targets_of_mem_addNameserver {owner : DomainName} {target name : String}
    {all : List Nameservers} {n : Nameservers} (hn : n ∈ addNameserver owner target all)
    (hname : name ∈ n.targets)
    : name = target ∨ ∃ old ∈ all, name ∈ old.targets := by
  induction all with
  | nil =>
      rw [List.mem_singleton.1 hn, List.mem_singleton] at hname
      exact .inl hname
  | cons first rest ih =>
      simp only [addNameserver] at hn
      split at hn
      · rcases List.mem_cons.1 hn with rfl | hn
        · split at hname
          · exact .inr ⟨first, List.mem_cons_self, hname⟩
          · rcases List.mem_append.1 hname with hname | hname
            · exact .inr ⟨first, List.mem_cons_self, hname⟩
            · exact .inl (List.mem_singleton.1 hname)
        · exact .inr ⟨n, List.mem_cons_of_mem first hn, hname⟩
      · rcases List.mem_cons.1 hn with rfl | hn
        · exact .inr ⟨n, List.mem_cons_self, hname⟩
        · exact (ih hn).imp_right fun ⟨old, hold, h⟩ => ⟨old, List.mem_cons_of_mem first hold, h⟩

/-- All nameservers have canonical names, by induction on the records. -/
theorem nameserversOf_canonical (rs : List Record)
    : ∀ n ∈ nameserversOf rs, ∀ name ∈ n.targets, canonicalName name = name := by
  refine List.foldlRecOn
    (motive := fun out : List Nameservers =>
      ∀ n ∈ out, ∀ name ∈ n.targets, canonicalName name = name)
    rs _ (by simp) fun out h r _ => ?_
  split
  · next target _ =>
    intro n hn name hname
    rcases mem_targets_of_mem_addNameserver hn hname with rfl | ⟨old, hold, hname⟩
    · exact target.canonicalName_canonicalText
    · exact h old hold name hname
  · exact h

-----------------------------------------------------------------------------------------
-- Root servers
-----------------------------------------------------------------------------------------

namespace Directory

theorem ofRecords_canonical (rs : List Record)
    : ∀ r ∈ (ofRecords rs).roots, canonicalName r.name = r.name := by
  intro r hr
  obtain ⟨name, hname, hroot⟩ := List.mem_filterMap.1 hr
  obtain ⟨a, -, rfl⟩ := Option.map_eq_some_iff.1 hroot
  unfold rootNames at hname
  cases hfound : (nameserversOf (byOwner rs.length rs)).find? fun n =>
      n.owner.canonicalText = "." with
  | none => simp [hfound] at hname
  | some n =>
      simp only [hfound, Option.map_some, Option.getD_some] at hname
      exact nameserversOf_canonical _ n (List.mem_of_find?_eq_some hfound) name hname

/-- The root servers of a directory that was read have canonical names. -/
theorem read_canonical {reader : Reader} {source text : String} {d : Directory}
    (h : (ofTextBy reader source text).directory = .ok d)
    : ∀ r ∈ d.roots, canonicalName r.name = r.name := by
  obtain ⟨rs, -, -, rfl⟩ := exists_records h
  exact ofRecords_canonical rs

/-- A server that is read from zone text has a canonical name and an address in presentation
form.
-/
theorem presents_of_mem_servers {reader : Reader} {source text : String} {d : Directory}
    {families : List FamilyName} {servers : List Server} {s : Server}
    (read : (ofTextBy reader source text).directory = .ok d)
    (wanted : d.servers families = .ok servers)
    (hs : s ∈ servers)
    : canonicalName s.name = s.name ∧ ∃ a : Address, a.presentation = s.address := by
  obtain ⟨r, hr, hname, f, -, haddress⟩ := mem_servers wanted hs
  obtain ⟨a, -, ha⟩ := (read_listed read).roots r hr f s.address haddress
  exact ⟨hname ▸ read_canonical read r hr, a, ha⟩

end Directory

end NameserverAudit.Zone
