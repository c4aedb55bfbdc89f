import Mathlib.Data.String.Basic
import NameserverAudit.Proofs.Zone.Facts
import NameserverAudit.Proofs.Zone.Servers

/-! Directories as readings of records. Main statement: the directory of zone text tells exactly
what its nameserver and address records say, names compared without regard to case; there is
none just if no nameserver of the root has an address. Records of other types, the order of the
records, their repetition and the case of their names do not matter to the root servers, their
addresses and the glue.
-/

namespace NameserverAudit.Zone

variable {rs rs' : List Record}

/-- Some record makes the name a nameserver of the root, and it has an address. -/
def IsRootServer (rs : List Record) (name : String) : Prop :=
  .nameserver "." name ∈ facts rs ∧ OwnsAddress rs name

/-- A nameserver with its addresses, if it has any. -/
def glueOf? (rs : List Record) (ns : String) : Option (String × List String) :=
  if addressList rs ns = [] then none else some (ns, addressList rs ns)

/-- The directory tells what the records say. -/
structure Directory.Tells (d : Directory) (rs : List Record) : Prop where
  /-- The root servers are the nameservers of the root with an address, with all addresses. -/
  roots : ∀ r,
    r ∈ d.roots
    ↔ IsRootServer rs r.name
      ∧ r.ipv4 = addressSet rs r.name .ipv4
      ∧ r.ipv6 = addressSet rs r.name .ipv6
  names : (d.roots.map (·.name)).Nodup
  /-- The delegations are those of the owners of nameservers other than the root. -/
  zones : ∀ zone,
    (∃ e ∈ d.delegations, e.zone = zone)
    ↔ zone ≠ "." ∧ ∃ target, .nameserver zone target ∈ facts rs
  distinct : (d.delegations.map (·.zone)).Nodup
  /-- A delegation has each nameserver where it first comes. -/
  nameservers : ∀ e ∈ d.delegations, e.nameservers = (targetsOf rs e.zone).eraseDups
  /-- The glue has those nameservers that have addresses. -/
  glue : ∀ e ∈ d.delegations, e.glue = e.nameservers.filterMap (glueOf? rs)

-----------------------------------------------------------------------------------------
-- Directories of records
-----------------------------------------------------------------------------------------

/-- Sorting records by owner keeps what they say of addresses. -/
theorem kept_sorted (rs : List Record) (owner : String)
    : Kept rs owner (addressesAt (addressesOf (sorted rs)) owner) :=
  (kept_addressesOf (sorted rs) owner).congr fun _ _ => mem_facts_sorted.symm

theorem rootServer?_eq_some_iff {name : String} {r : RootServer}
    : rootServer? (addressesOf (sorted rs)) name = some r
      ↔ OwnsAddress rs name
        ∧ r = ⟨name, addressSet rs name .ipv4, addressSet rs name .ipv6⟩ := by
  have kept := kept_sorted rs name
  unfold rootServer?
  revert kept
  generalize addressesAt (addressesOf (sorted rs)) name = found
  intro kept
  cases kept with
  | nothing lacks => simp [lacks]
  | addresses owns => simp [owns, eq_comm]

theorem glue_sorted (rs : List Record) (ns : String)
    : ((addressesAt (addressesOf (sorted rs)) ns).map fun a =>
        (ns, a.ipv4.toList ++ a.ipv6.toList))
      = glueOf? rs ns := by
  have kept := kept_sorted rs ns
  revert kept
  generalize addressesAt (addressesOf (sorted rs)) ns = found
  intro kept
  unfold glueOf?
  cases kept with
  | nothing lacks =>
      rw [if_pos (Classical.not_not.1 fun h => lacks (addressList_ne_nil_iff.1 h))]
      rfl
  | addresses owns =>
      rw [if_neg (addressList_ne_nil_iff.2 owns)]
      rfl

/-- The nameservers of the root are those that records say. -/
theorem rootNames_sorted (rs : List Record)
    : Directory.rootNames (nameserversOf (sorted rs)) = (targetsOf rs ".").eraseDups :=
  (targetsAt_nameserversOf (sorted rs) ".").trans (by rw [targetsOf_sorted])

namespace Directory

theorem ofRecords_roots (rs : List Record)
    : (ofRecords rs).roots
      = (rootNames (nameserversOf (sorted rs))).filterMap
          (rootServer? (addressesOf (sorted rs))) :=
  rfl

theorem mem_delegations_iff {e : Delegation}
    : e ∈ (ofRecords rs).delegations
      ↔ ∃ n ∈ nameserversOf (sorted rs),
          n.owner.canonicalText ≠ "." ∧ delegationOf (addressesOf (sorted rs)) n = e := by
  rw [show (ofRecords rs).delegations
    = ((nameserversOf (sorted rs)).filter fun n => n.owner.canonicalText ≠ ".").map
        (delegationOf (addressesOf (sorted rs))) from rfl]
  simp only [List.mem_map, List.mem_filter, decide_eq_true_eq, and_assoc]

/-- The directory of records tells what they say. -/
theorem ofRecords_tells (rs : List Record) : (ofRecords rs).Tells rs := by
  constructor
  case roots =>
    intro r
    simp only [ofRecords_roots, List.mem_filterMap, rootNames_sorted, List.mem_eraseDups,
      mem_targetsOf, rootServer?_eq_some_iff]
    constructor
    · rintro ⟨name, hname, owns, rfl⟩
      exact ⟨⟨hname, owns⟩, rfl, rfl⟩
    · rintro ⟨⟨hname, owns⟩, h4, h6⟩
      exact ⟨r.name, hname, owns, by rw [← h4, ← h6]⟩
  case names => exact ofRecords_names rs
  case zones =>
    intro zone
    have owners := exists_mem_nameserversOf_iff (sorted rs) zone
    have named : targetsOf rs zone ≠ [] ↔ ∃ target, .nameserver zone target ∈ facts rs := by
      simp only [ne_eq, List.eq_nil_iff_forall_not_mem, mem_targetsOf, not_forall, not_not]
    rw [targetsOf_sorted, named] at owners
    rw [← owners]
    constructor
    · rintro ⟨e, he, rfl⟩
      obtain ⟨n, hn, hroot, rfl⟩ := mem_delegations_iff.1 he
      exact ⟨hroot, n, hn, rfl⟩
    · rintro ⟨hroot, n, hn, rfl⟩
      exact ⟨_, mem_delegations_iff.2 ⟨n, hn, hroot, rfl⟩, rfl⟩
  case distinct =>
    have owners := nodup_owners (sorted rs)
    rw [ofRecords, List.map_map]
    exact owners.sublist (List.filter_sublist.map _)
  case nameservers =>
    intro e he
    obtain ⟨n, hn, -, rfl⟩ := mem_delegations_iff.1 he
    rw [← targetsOf_sorted]
    exact targetsAt_of_mem hn
  case glue =>
    intro e he
    obtain ⟨n, hn, -, rfl⟩ := mem_delegations_iff.1 he
    simp only [delegationOf, glue_sorted]

section Tells

variable {d : Directory} (h : d.Tells rs)

include h

/-- The root servers are told by their names. -/
theorem Tells.isRootServer_iff {name : String}
    : IsRootServer rs name ↔ ∃ r ∈ d.roots, r.name = name := by
  constructor
  · intro hname
    exact ⟨⟨name, addressSet rs name .ipv4, addressSet rs name .ipv6⟩,
      (h.roots _).2 ⟨hname, rfl, rfl⟩, rfl⟩
  · rintro ⟨r, hr, rfl⟩
    exact ((h.roots r).1 hr).1

theorem Tells.mem_addresses {r : RootServer} (hr : r ∈ d.roots) {f : Family} {text : String}
    : text ∈ r.addresses f ↔ .address r.name f text ∈ facts rs := by
  obtain ⟨-, h4, h6⟩ := (h.roots r).1 hr
  rw [← mem_addressSet]
  cases f with
  | ipv4 => rw [RootServer.addresses, h4]
  | ipv6 => rw [RootServer.addresses, h6]

end Tells

end Directory

-----------------------------------------------------------------------------------------
-- Servers of the root
-----------------------------------------------------------------------------------------

/-- The servers that root servers make are all their addresses of the families, root server
after root server and family after family. By induction on the families.
-/
theorem RootServer.servers_eq (r : RootServer) (families : List Family)
    : r.servers (families.map .known)
      = .ok (families.flatMap fun f => (r.addresses f).toList.map (Server.mk r.name)) := by
  induction families with
  | nil => rfl
  | cons f rest ih => simp [RootServer.servers, ih]

namespace Directory

theorem serversOf_eq (roots : List RootServer) (families : List Family)
    : serversOf (families.map .known) roots
      = .ok (roots.flatMap fun r =>
          families.flatMap fun f => (r.addresses f).toList.map (Server.mk r.name)) := by
  induction roots with
  | nil => rfl
  | cons r rest ih => simp [serversOf, RootServer.servers_eq, ih]

/-- The root servers in the order of their names. -/
def byName (d : Directory) : List RootServer :=
  d.roots.mergeSort fun r s => !(s.name < r.name)

theorem pairwise_byName (d : Directory) : d.byName.Pairwise fun r s => r.name ≤ s.name := by
  refine pairwise_mergeSort_key fun r _ s _ => ?_
  rw [Bool.eq_iff_iff, Bool.not_eq_true', decide_eq_false_iff_not, decide_eq_true_eq, not_lt]

/-- The servers of known families are the addresses of these families of all root servers, in
the order of the names of the root servers, each once.
-/
theorem servers_listed {d : Directory} (distinct : d.Distinct) {families : List Family}
    (once : families.Nodup)
    : ∃ servers,
        d.servers (families.map .known) = .ok servers
        ∧ servers.Nodup
        ∧ servers.Pairwise (fun s t => s.name ≤ t.name)
        ∧ ∀ s, s ∈ servers
            ↔ ∃ r ∈ d.roots, s.name = r.name ∧ ∃ f ∈ families, s.address ∈ r.addresses f := by
  have eq : d.servers (families.map .known) = _ := serversOf_eq d.byName families
  refine ⟨_, eq, servers_nodup distinct (once.map fun f g h => by simpa using h) eq, ?_, ?_⟩
  · rw [List.pairwise_flatMap]
    have name_of {r : RootServer} {s : Server}
        (hs : s ∈ families.flatMap fun f => (r.addresses f).toList.map (Server.mk r.name))
        : s.name = r.name := by
      simp only [List.mem_flatMap, List.mem_map] at hs
      obtain ⟨_, _, _, _, rfl⟩ := hs
      rfl
    constructor
    · intro r _
      refine List.pairwise_of_forall_mem_list fun s hs t ht => ?_
      rw [name_of hs, name_of ht]
    · refine d.pairwise_byName.imp fun hle s hs t ht => ?_
      rwa [name_of hs, name_of ht]
  · intro s
    simp only [List.mem_flatMap, List.mem_map, byName, List.mem_mergeSort]
    constructor
    · rintro ⟨r, hr, f, hf, address, haddress, rfl⟩
      exact ⟨r, hr, rfl, f, hf, haddress⟩
    · rintro ⟨r, hr, hname, f, hf, haddress⟩
      exact ⟨r, hr, f, hf, s.address, haddress, by rw [← hname]⟩

-----------------------------------------------------------------------------------------
-- Records that say the same
-----------------------------------------------------------------------------------------

/-- The directories have the same root servers, give the same servers of the root, and have the
same glue for the same zones. The order of root servers and nameservers may differ.
-/
structure Agrees (d d' : Directory) : Prop where
  roots : ∀ r, r ∈ d'.roots ↔ r ∈ d.roots
  servers : ∀ families, d'.servers families = d.servers families
  zones : ∀ zone,
    (∃ e ∈ d'.delegations, e.zone = zone) ↔ ∃ e ∈ d.delegations, e.zone = zone
  glue : ∀ e ∈ d.delegations, ∀ e' ∈ d'.delegations, e'.zone = e.zone →
    (∀ ns, ns ∈ e'.nameservers ↔ ns ∈ e.nameservers)
    ∧ ∀ entry, entry ∈ e'.glue ↔ entry ∈ e.glue

/-- Directories of records that say the same agree. Root servers with different names can be put
into the order of their names in one way only.
-/
theorem Tells.agrees {d d' : Directory} (h : d.Tells rs) (h' : d'.Tells rs')
    (same : ∀ fact, fact ∈ facts rs' ↔ fact ∈ facts rs)
    : d.Agrees d' := by
  have owns (name : String) : OwnsAddress rs' name ↔ OwnsAddress rs name := by
    simp only [OwnsAddress, same]
  have roots (r : RootServer) : r ∈ d'.roots ↔ r ∈ d.roots := by
    rw [h.roots, h'.roots, IsRootServer, IsRootServer, same, owns, addressSet_congr same,
      addressSet_congr same]
  constructor
  case roots => exact roots
  case servers =>
    intro families
    have perm : d'.byName.Perm d.byName :=
      (List.mergeSort_perm _ _).trans
        (((List.perm_ext_iff_of_nodup h'.names.of_map h.names.of_map).2 roots).trans
          (List.mergeSort_perm _ _).symm)
    have eq : d'.byName = d.byName := by
      refine List.Perm.eq_of_pairwise (fun r s hr hs hrs hsr => ?_) d'.pairwise_byName
        d.pairwise_byName perm
      rw [byName, List.mem_mergeSort, roots] at hr
      rw [byName, List.mem_mergeSort] at hs
      exact List.inj_on_of_nodup_map h.names hr hs (String.le_antisymm hrs hsr)
    exact congrArg (serversOf families) eq
  case zones =>
    intro zone
    simp only [h.zones, h'.zones, same]
  case glue =>
    intro e he e' he' hzone
    have nameservers (ns : String) : ns ∈ e'.nameservers ↔ ns ∈ e.nameservers := by
      rw [h.nameservers e he, h'.nameservers e' he', List.mem_eraseDups, List.mem_eraseDups,
        mem_targetsOf, mem_targetsOf, same, hzone]
    refine ⟨nameservers, fun entry => ?_⟩
    simp only [h.glue e he, h'.glue e' he', List.mem_filterMap, nameservers, glueOf?,
      addressList_congr same]

-----------------------------------------------------------------------------------------
-- Directories of zone text
-----------------------------------------------------------------------------------------

/-- Zone text whose records can be read gives the directory of its records, or none if that has
no root server.
-/
theorem ofText_eq {reader : Reader} (source : String) {text : String}
    (read : reader (withTtl text.toList) = .ok rs)
    : (ofTextBy reader source text).directory
      = if (ofRecords rs).roots.isEmpty then .error (.noRoots source) else .ok (ofRecords rs) := by
  simp only [ofTextBy, read, Reading.ofRecords]

/-- A directory of zone text tells what the records of the text say. -/
theorem exists_tells {reader : Reader} {source text : String} {d : Directory}
    (h : (ofTextBy reader source text).directory = .ok d)
    : ∃ rs, reader (withTtl text.toList) = .ok rs ∧ d.Tells rs := by
  obtain ⟨rs, read, -, rfl⟩ := exists_records h
  exact ⟨rs, read, ofRecords_tells rs⟩

theorem roots_isEmpty_iff (rs : List Record)
    : (ofRecords rs).roots.isEmpty = true ↔ ¬∃ name, IsRootServer rs name := by
  simp only [(ofRecords_tells rs).isRootServer_iff, List.isEmpty_iff,
    List.eq_nil_iff_forall_not_mem, not_exists, not_and]
  exact ⟨fun h _ r hr _ => h r hr, fun h r hr => h r.name r hr rfl⟩

/-- The directory of zone text tells what its records say; there is none just if no nameserver
of the root has an address. The servers of the root for known families, each named once, are the
addresses of these families of all root servers, each once, in the order of the names of the
root servers. Zone text whose records say the same, in whatever order, case and number, has a
directory with the same root servers, servers and glue.
-/
theorem ofText_tells_records {reader : Reader} {source text : String} {rs : List Record}
    (read : reader (withTtl text.toList) = .ok rs)
    : ((∃ fault, (ofTextBy reader source text).directory = .error fault)
        ↔ ¬∃ name, IsRootServer rs name)
      ∧ ∀ d, (ofTextBy reader source text).directory = .ok d →
          d.Tells rs
          ∧ (∀ families : List Family, families.Nodup →
              ∃ servers,
                d.servers (families.map .known) = .ok servers
                ∧ servers.Nodup
                ∧ servers.Pairwise (fun s t => s.name ≤ t.name)
                ∧ ∀ s, s ∈ servers
                    ↔ IsRootServer rs s.name
                      ∧ ∃ f ∈ families, .address s.name f s.address ∈ facts rs)
          ∧ ∀ source' text' rs',
              reader (withTtl text'.toList) = .ok rs' →
              (∀ fact, fact ∈ facts rs' ↔ fact ∈ facts rs) →
              ∃ d', (ofTextBy reader source' text').directory = .ok d' ∧ d.Agrees d' := by
  have directory := ofText_eq source read
  constructor
  · rw [directory, ← roots_isEmpty_iff]
    split
    · next h => simp [h]
    · next h => simp [h]
  intro d hd
  have distinct := read_distinct hd
  rw [directory] at hd
  split at hd
  · cases hd
  next filled =>
  obtain rfl : ofRecords rs = d := Except.ok.inj hd
  have tells := ofRecords_tells rs
  refine ⟨tells, fun families once => ?_, fun source' text' rs' read' same => ?_⟩
  · obtain ⟨servers, h, nodup, ordered, mem⟩ := servers_listed distinct once
    refine ⟨servers, h, nodup, ordered, fun s => ?_⟩
    rw [mem, tells.isRootServer_iff]
    constructor
    · rintro ⟨r, hr, hname, f, hf, haddress⟩
      exact ⟨⟨r, hr, hname.symm⟩, f, hf, hname ▸ (tells.mem_addresses hr).1 haddress⟩
    · rintro ⟨⟨r, hr, hname⟩, f, hf, haddress⟩
      exact ⟨r, hr, hname.symm, f, hf, (tells.mem_addresses hr).2 (hname ▸ haddress)⟩
  · have agree := tells.agrees (ofRecords_tells rs') same
    obtain ⟨r, hr⟩ := List.exists_mem_of_ne_nil _ (mt List.isEmpty_iff.2 filled)
    have filled' : (ofRecords rs').roots.isEmpty = false :=
      List.isEmpty_eq_false_iff.2 (List.ne_nil_of_mem ((agree.roots r).2 hr))
    refine ⟨ofRecords rs', ?_, agree⟩
    rw [ofText_eq source' read', filled']
    rfl

/-- The records of zone text that can be read. -/
def recordsIn (text : String) : List Record :=
  (recordsOf (withTtl text.toList)).toOption.getD []

/-- Zone text with names in any case, a record that comes twice and one of another type. -/
def mixedZone : String :=
  "Org. NS a.Root.\n. NS A.Root.\nORG. TXT text\na.ROOT. A 192.0.2.1\norg. NS a.root.\n"

/-- Zone text that says the same in another order, once. -/
def tidyZone : String :=
  "a.root. A 192.0.2.1\n. NS a.root.\norg. NS a.root.\n"

/-- Witness: both texts have directories, which agree. -/
theorem mixedZone_tells_records
    : ∃ d d',
        (ofText "hints" mixedZone).directory = .ok d
        ∧ (ofText "hints" tidyZone).directory = .ok d'
        ∧ d.Tells (recordsIn mixedZone)
        ∧ d.Agrees d' := by
  have mixed : facts (recordsIn mixedZone)
      = [.nameserver "org." "a.root.", .nameserver "." "a.root.",
          .address "a.root." .ipv4 "192.0.2.1", .nameserver "org." "a.root."] := by
    decide +kernel
  have tidy : facts (recordsIn tidyZone)
      = [.address "a.root." .ipv4 "192.0.2.1", .nameserver "." "a.root.",
          .nameserver "org." "a.root."] := by
    decide +kernel
  have root : IsRootServer (recordsIn mixedZone) "a.root." := by
    refine ⟨?_, .ipv4, "192.0.2.1", ?_⟩
    · simp [mixed]
    · simp [mixed]
  have same (fact : Fact)
      : fact ∈ facts (recordsIn tidyZone) ↔ fact ∈ facts (recordsIn mixedZone) := by
    simp only [mixed, tidy, List.mem_cons, List.not_mem_nil, or_false]
    constructor
    · rintro (h | h | h) <;> simp [h]
    · rintro (h | h | h | h) <;> simp [h]
  have read : recordsOf (withTtl mixedZone.toList) = .ok (recordsIn mixedZone) := by
    decide +kernel
  have read' : recordsOf (withTtl tidyZone.toList) = .ok (recordsIn tidyZone) := by
    decide +kernel
  obtain ⟨fails, tells⟩ := @ofText_tells_records recordsOf "hints" mixedZone _ read
  obtain ⟨d, hd⟩ : ∃ d, (ofText "hints" mixedZone).directory = .ok d := by
    rcases h : (ofText "hints" mixedZone).directory with fault | d
    · exact absurd ⟨_, root⟩ (fails.1 ⟨fault, h⟩)
    · exact ⟨d, rfl⟩
  obtain ⟨told, -, agree⟩ := tells d hd
  obtain ⟨d', hd', agrees⟩ := agree "hints" tidyZone _ read' same
  exact ⟨d, d', hd, hd', told, agrees⟩

end Directory

end NameserverAudit.Zone
