import Mathlib.Data.List.Nodup
import NameserverAudit.Proofs.Zone.Families

/-! The delegations of a directory that was read from zone text. Each is of a zone below the
root and names its nameservers once each, and its glue has each nameserver once, with different
addresses; so the servers that it gives are all different.
-/

namespace NameserverAudit

/-- A set lists every text once. -/
theorem TextSet.nodup (s : TextSet) : s.toList.Nodup :=
  s.increasing.imp fun hlt => String.ne_of_lt hlt

namespace Zone

-----------------------------------------------------------------------------------------
-- What is read of an owner
-----------------------------------------------------------------------------------------

/-- The owner has nameservers, each once. -/
structure Nameservers.Proper (n : Nameservers) : Prop where
  some : n.targets ≠ []
  distinct : n.targets.Nodup

/-- One more nameserver leaves owners with their nameservers once each, by induction on the
owners.
-/
theorem addNameserver_proper {all : List Nameservers} (owner : DomainName) (target : String)
    (h : ∀ n ∈ all, n.Proper)
    : ∀ n ∈ addNameserver owner target all, n.Proper := by
  induction all with
  | nil =>
      intro n hn
      rw [List.mem_singleton.1 hn]
      exact ⟨by simp, by simp⟩
  | cons first rest ih =>
      have hfirst := h first (by simp)
      have hrest := fun n hn => h n (List.mem_cons_of_mem first hn)
      intro n hn
      simp only [addNameserver] at hn
      split at hn
      · rcases List.mem_cons.1 hn with rfl | hn
        · split
          · exact hfirst
          · next hnew =>
            rw [List.contains_eq_mem, decide_eq_true_eq] at hnew
            refine ⟨by simp, List.nodup_append.2 ⟨hfirst.distinct, by simp, ?_⟩⟩
            rintro t ht _ hmem rfl
            exact hnew (List.mem_singleton.1 hmem ▸ ht)
        · exact hrest n hn
      · rcases List.mem_cons.1 hn with rfl | hn
        · exact hfirst
        · exact ih hrest n hn

/-- All owners have their nameservers once each, by induction on the records. -/
theorem nameserversOf_proper (rs : List Record) : ∀ n ∈ nameserversOf rs, n.Proper := by
  refine List.foldlRecOn (motive := fun out : List Nameservers => ∀ n ∈ out, n.Proper) rs _
    (by simp) fun out h r _ => ?_
  split
  · exact addNameserver_proper _ _ h
  · exact h

/-- The addresses of an owner are different, those of one version from those of the other one
by their families.
-/
theorem Addresses.Listed.nodup {a : Addresses} (h : a.Listed)
    : (a.ipv4.toList ++ a.ipv6.toList).Nodup := by
  refine List.nodup_append.2 ⟨a.ipv4.nodup, a.ipv6.nodup, ?_⟩
  rintro text h4 _ h6 rfl
  have hfamily := (h.1 text h4).familyOf?.symm.trans (h.2 text h6).familyOf?
  cases hfamily

-----------------------------------------------------------------------------------------
-- Delegations
-----------------------------------------------------------------------------------------

namespace Delegation

/-- The zone is not the root, there are nameservers, and nothing is there twice; the glue is
made of addresses.
-/
structure Proper (d : Delegation) : Prop where
  notRoot : d.zone ≠ "."
  some : d.nameservers ≠ []
  distinct : d.nameservers.Nodup
  owners : (d.glue.map Prod.fst).Nodup
  addresses : ∀ entry ∈ d.glue, entry.2.Nodup
  presented : ∀ entry ∈ d.glue, ∀ text ∈ entry.2, ∃ f, Presents f text

/-- The glue, one address at a time. -/
def pairs (d : Delegation) : List (String × String) :=
  d.glue.flatMap fun entry => entry.2.map (Prod.mk entry.1)

/-- The addresses of a nameserver are those that stand beside it in the glue, by induction on
the glue.
-/
theorem glueOf_eq_pairs {d : Delegation} (owners : (d.glue.map Prod.fst).Nodup) (ns : String)
    : d.glueOf ns = (d.pairs.filter fun pair => pair.1 = ns).map Prod.snd := by
  obtain ⟨name, nameservers, glue⟩ := d
  unfold glueOf pairs
  dsimp only at owners ⊢
  induction glue with
  | nil => rfl
  | cons entry rest ih =>
      obtain ⟨hnot, hrest⟩ := List.nodup_cons.1 owners
      have hfront : ((entry.2.map (Prod.mk entry.1)).filter fun pair => pair.1 = ns)
          = if entry.1 = ns then entry.2.map (Prod.mk entry.1) else [] := by
        split <;> simp_all [List.filter_map, Function.comp_def]
      rw [List.flatMap_cons, List.filter_append, List.map_append, ← ih hrest, hfront]
      by_cases hns : entry.1 = ns
      · have hnone : rest.find? (fun entry => entry.1 = ns) = none := by
          rw [List.find?_eq_none]
          intro other hother heq
          have hkey : other.1 = entry.1 := (of_decide_eq_true heq).trans hns.symm
          exact hnot (hkey ▸ List.mem_map_of_mem hother)
        simp [hns, hnone, Function.comp_def]
      · simp [hns]

namespace Proper

variable {d : Delegation} (proper : d.Proper)

include proper

theorem glueOf_nodup (ns : String) : (d.glueOf ns).Nodup := by
  unfold glueOf
  split
  · next entry hentry => exact proper.addresses entry (List.mem_of_find?_eq_some hentry)
  · exact .nil

/-- The servers of a delegation are all different, by their names or by their addresses. -/
theorem servers_nodup (families : List FamilyName) : (d.servers families).Nodup := by
  refine List.nodup_flatMap.2 ⟨fun ns _ => ?_, proper.distinct.imp fun hne => ?_⟩
  · refine List.Nodup.map (fun a b h => ?_) ((proper.glueOf_nodup ns).filter _)
    exact congrArg Server.address h
  · intro s hs hs'
    obtain ⟨a, -, rfl⟩ := List.mem_map.1 hs
    obtain ⟨b, -, hb⟩ := List.mem_map.1 hs'
    exact hne (congrArg Server.name hb).symm

end Proper

/-- Every nameserver has an address of one of the families in the glue, and all glue is in
canonical form.
-/
structure Glued (d : Delegation) (families : List FamilyName) : Prop where
  wanted : ∀ ns ∈ d.nameservers, ∃ a ∈ d.glueOf ns, .known (familyOf a) ∈ families
  canonical : ∀ entry ∈ d.glue, ∀ a ∈ entry.2, canonicalAddress a = .ok a

/-- A delegation whose nameservers have glue gives servers. -/
theorem Glued.servers_ne_nil {d : Delegation} {families : List FamilyName}
    (glued : d.Glued families) (proper : d.Proper)
    : d.servers families ≠ [] := by
  obtain ⟨ns, hns⟩ := List.exists_mem_of_ne_nil _ proper.some
  obtain ⟨a, ha, hwanted⟩ := glued.wanted ns hns
  have hserver : Server.mk ns a ∈ d.servers families :=
    List.mem_flatMap.2 ⟨ns, hns, List.mem_map_of_mem (List.mem_filter.2 ⟨ha, by simpa⟩)⟩
  exact List.ne_nil_of_mem hserver

end Delegation

/-- The delegation of an owner is proper. -/
theorem delegationOf_proper {all : List Addresses} (listed : ∀ a ∈ all, a.Listed)
    {n : Nameservers} (proper : n.Proper) (hroot : n.owner.canonicalText ≠ ".")
    : (delegationOf all n).Proper := by
  have hentry {entry : String × List String} (h : entry ∈ (delegationOf all n).glue)
      : ∃ a ∈ all, entry.2 = a.ipv4.toList ++ a.ipv6.toList := by
    obtain ⟨ns, -, hns⟩ := List.mem_filterMap.1 h
    obtain ⟨a, ha, rfl⟩ := Option.map_eq_some_iff.1 hns
    exact ⟨a, List.mem_of_find?_eq_some ha, rfl⟩
  constructor
  · exact hroot
  · exact proper.some
  · exact proper.distinct
  · rw [delegationOf, List.map_filterMap]
    refine List.Nodup.filterMap (fun ns ns' key h h' => ?_) proper.distinct
    simp only [Option.map_map, Option.mem_def, Option.map_eq_some_iff] at h h'
    obtain ⟨_, _, hkey⟩ := h
    obtain ⟨_, _, hkey'⟩ := h'
    exact hkey.trans hkey'.symm
  · intro entry he
    obtain ⟨a, ha, heq⟩ := hentry he
    exact heq ▸ (listed a ha).nodup
  · intro entry he text ht
    obtain ⟨a, ha, heq⟩ := hentry he
    rcases List.mem_append.1 (heq ▸ ht) with ht | ht
    · exact ⟨.ipv4, (listed a ha).1 text ht⟩
    · exact ⟨.ipv6, (listed a ha).2 text ht⟩

/-- The delegations of a directory that was read are proper. -/
theorem Directory.read_proper {reader : Reader} {source text : String} {d : Directory}
    (h : (ofTextBy reader source text).directory = .ok d)
    : ∀ e ∈ d.delegations, e.Proper := by
  obtain ⟨rs, -, -, rfl⟩ := exists_records h
  intro e he
  obtain ⟨n, hn, rfl⟩ := List.mem_map.1 he
  obtain ⟨hmem, hroot⟩ := List.mem_filter.1 hn
  exact delegationOf_proper (addressesOf_listed _) (nameserversOf_proper _ n hmem)
    (by simpa using hroot)

end Zone

end NameserverAudit
