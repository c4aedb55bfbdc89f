import NameserverAudit.Proofs.Zone.Delegations

/-! The servers of a directory. Main statement: families that are asked for once each give
servers that are all different, from the root servers as from every delegation, if the root
servers have different names and no address in both families; this is so in a directory that was
read from zone text.
-/

namespace NameserverAudit.Zone

/-- An address of a root server without an address in both families is in one family. -/
theorem RootServer.family_unique {r : RootServer} (apart : ∀ text ∈ r.ipv4, text ∉ r.ipv6)
    {f g : Family} {text : String} (hf : text ∈ r.addresses f) (hg : text ∈ r.addresses g)
    : f = g := by
  cases f <;> cases g
  · rfl
  · exact absurd hg (apart text hf)
  · exact absurd hf (apart text hg)
  · rfl

/-- The servers of a root server are different: those of one family are different addresses,
and no address is of two families. By induction on the families.
-/
theorem RootServer.servers_nodup {r : RootServer} {families : List FamilyName}
    {servers : List Server} (apart : ∀ text ∈ r.ipv4, text ∉ r.ipv6)
    (once : families.Nodup) (h : r.servers families = .ok servers)
    : servers.Nodup := by
  induction families generalizing servers with
  | nil =>
      rw [← Except.ok.inj h]
      exact .nil
  | cons family rest ih =>
      cases family with
      | other name => cases h
      | known f =>
          obtain ⟨hnew, hrest⟩ := List.nodup_cons.1 once
          simp only [RootServer.servers] at h
          split at h
          · cases h
          · next more hmore =>
            rw [← Except.ok.inj h]
            refine List.nodup_append.2 ⟨?_, ih hrest hmore, ?_⟩
            · exact (r.addresses f).nodup.map fun a b hab => congrArg Server.address hab
            · rintro s hs _ hs' rfl
              obtain ⟨text, ht, rfl⟩ := List.mem_map.1 hs
              obtain ⟨-, g, hg, ht'⟩ := mem_servers hmore hs'
              exact hnew (family_unique apart ht ht' ▸ hg)

namespace Directory

/-- Root servers with different names have different servers, by induction on them. -/
theorem serversOf_nodup {roots : List RootServer} {families : List FamilyName}
    {servers : List Server}
    (apart : ∀ r ∈ roots, ∀ text ∈ r.ipv4, text ∉ r.ipv6)
    (names : (roots.map (·.name)).Nodup) (once : families.Nodup)
    (h : serversOf families roots = .ok servers)
    : servers.Nodup := by
  induction roots generalizing servers with
  | nil =>
      rw [← Except.ok.inj h]
      exact .nil
  | cons r rest ih =>
      obtain ⟨hnew, hnames⟩ := List.nodup_cons.1 names
      simp only [serversOf] at h
      split at h
      · cases h
      · next front hfront =>
        split at h
        · cases h
        · next more hmore =>
          rw [← Except.ok.inj h]
          refine List.nodup_append.2
            ⟨RootServer.servers_nodup (apart r (by simp)) once hfront,
              ih (fun r' hr' => apart r' (List.mem_cons_of_mem r hr')) hnames hmore, ?_⟩
          rintro s hs _ hs' rfl
          obtain ⟨hname, -⟩ := RootServer.mem_servers hfront hs
          obtain ⟨r', hr', hname', -⟩ := mem_serversOf hmore hs'
          exact hnew (List.mem_map.2 ⟨r', hr', hname'.symm.trans hname⟩)

/-- The root servers of records have different names: those of the root's nameservers. -/
theorem ofRecords_names (rs : List Record) : ((ofRecords rs).roots.map (·.name)).Nodup := by
  have distinct : (rootNames (nameserversOf (byOwner rs.length rs))).Nodup := by
    unfold rootNames
    cases hfound : (nameserversOf (byOwner rs.length rs)).find? fun n =>
        n.owner.canonicalText = "." with
    | none => exact .nil
    | some n =>
        exact (nameserversOf_proper _ n (List.mem_of_find?_eq_some hfound)).distinct
  simp only [ofRecords, List.map_filterMap]
  refine distinct.filterMap fun name name' key h h' => ?_
  simp only [rootServer?, Option.map_map, Option.mem_def, Option.map_eq_some_iff] at h h'
  obtain ⟨_, _, hkey⟩ := h
  obtain ⟨_, _, hkey'⟩ := h'
  exact hkey.trans hkey'.symm

/-- The root servers of a directory have different names, and none has an address in both
families.
-/
structure Distinct (d : Directory) : Prop where
  names : (d.roots.map (·.name)).Nodup
  apart : ∀ r ∈ d.roots, ∀ text ∈ r.ipv4, text ∉ r.ipv6

/-- The root servers of a directory that was read are distinct: their addresses are listed under
the family that they are of.
-/
theorem read_distinct {reader : Reader} {source text : String} {d : Directory}
    (read : (ofTextBy reader source text).directory = .ok d)
    : d.Distinct := by
  constructor
  case names =>
    obtain ⟨rs, -, -, rfl⟩ := exists_records read
    exact ofRecords_names rs
  case apart =>
    intro r hr address h4 h6
    have listed := (read_listed read).roots r hr
    have families := (listed .ipv4 address h4).familyOf?.symm.trans
      (listed .ipv6 address h6).familyOf?
    cases families

/-- The servers of distinct root servers are all different. -/
theorem servers_nodup {d : Directory} {families : List FamilyName} {servers : List Server}
    (distinct : d.Distinct) (once : families.Nodup) (h : d.servers families = .ok servers)
    : servers.Nodup := by
  have perm := List.mergeSort_perm d.roots fun r s => !(s.name < r.name)
  refine serversOf_nodup (fun r hr => ?_) ((perm.map (·.name)).nodup_iff.2 distinct.names) once h
  exact distinct.apart r (perm.mem_iff.1 hr)

/-- The servers of a delegation that a directory gives for a domain are all different. -/
theorem delegationFor_servers_nodup {reader : Reader} {source text domain : String} {d : Directory}
    {e : Delegation} (read : (ofTextBy reader source text).directory = .ok d)
    (h : d.delegationFor domain = some e) (families : List FamilyName)
    : (e.servers families).Nodup :=
  (read_proper read e (mem_of_covering h)).servers_nodup families

end Directory

end NameserverAudit.Zone
