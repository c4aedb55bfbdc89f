import NameserverAudit.Proofs.Address.Canonical
import NameserverAudit.Proofs.Pass.Independence
import NameserverAudit.Proofs.Walk.Collection
import NameserverAudit.Proofs.Walk.Cuts

/-! What an audit reports can be expected of the domain from then on. All that a lookup
publishes is in canonical form already, so neither the verdict nor an expectation made of it
changes it. Main statement: on a steady network an audit against its own report is a success
and reports the same.
-/

namespace NameserverAudit

-----------------------------------------------------------------------------------------
-- Published data in canonical form
-----------------------------------------------------------------------------------------

/-- All names and addresses are in canonical form. -/
structure Published.Canonical (p : Published) : Prop where
  nameservers : ∀ n ∈ p.nameservers, canonicalName n = n
  addresses : ∀ a ∈ p.addresses, canonicalAddress a = .ok a

/-- The addresses of a record set are canonical texts. -/
theorem Content.canonicalAddress_of_mem {c : Content} {a : String} (h : a ∈ c.addresses)
    : canonicalAddress a = .ok a := by
  cases c with
  | nameservers targets | foreign family records | other type => simp [addresses] at h
  | ipv4 xs =>
      obtain ⟨x, -, rfl⟩ := List.mem_map.1 h
      exact Address.canonicalAddress_text (.v4 x)
  | ipv6 xs =>
      obtain ⟨x, -, rfl⟩ := List.mem_map.1 h
      exact Address.canonicalAddress_text (.v6 x none)

namespace Walker

/-- A lookup that ends with published data has collected them at some cut, which a walk reached
by asking.
-/
theorem collect_of_resolve {w : Walker} {nameservers addresses : Bool} {domain : String}
    {p : Published} {j : Journal} (found : (w.resolve nameservers addresses domain j).1 = .ok p)
    : w.manner.Fits
      ∧ ∃ q cut k, (w.collect q cut (wantedTypes nameservers addresses) k).1 = .ok p := by
  unfold resolve at found
  dsimp only at found
  split at found
  · next q _ =>
    rcases hwalk : w.walk w.maxDepth q j with ⟨fault | cut, k⟩
    · rw [hwalk] at found
      cases found
    · rw [hwalk] at found
      exact ⟨fits_of_walk (congrArg Prod.fst hwalk), q, cut, k, found⟩
  · split at found
    · cases found
    · split at found <;> cases found

/-- What a lookup publishes on a steady network is in canonical form, since it is made of the
names and the addresses of record sets.
-/
theorem canonical_of_resolve {w : Walker} (steady : w.network.Steady)
    {nameservers addresses : Bool} {domain : String} {p : Published} {j : Journal}
    (found : (w.resolve nameservers addresses domain j).1 = .ok p)
    : p.Canonical := by
  obtain ⟨fits, q, cut, k, hcollect⟩ := collect_of_resolve found
  obtain ⟨-, -, hunion⟩ := (collect_eq_ok_iff fits steady cut _ k p).1 hcollect
  constructor
  · intro n hn
    obtain ⟨-, r, -, hmem⟩ := (hunion.nameservers n).1 hn
    obtain ⟨name, -, rfl⟩ := List.mem_map.1 hmem
    exact name.canonicalName_canonicalText
  · intro a ha
    obtain ⟨type, -, -, r, -, hmem⟩ := (hunion.addresses a).1 ha
    obtain ⟨s, -, -, hs⟩ := Response.mem_addressesOf.1 hmem
    exact Content.canonicalAddress_of_mem hs

end Walker

-----------------------------------------------------------------------------------------
-- Verdicts and expectations on canonical data
-----------------------------------------------------------------------------------------

/-- A set whose members a function leaves alone is left alone by it. -/
theorem TextSet.ofList_map_of_fixed {s : TextSet} {f : String → String}
    (fixed : ∀ x ∈ s, f x = x)
    : ofList (s.toList.map f) = s := by
  have hmap : s.toList.map f = s.toList :=
    (List.map_congr_left fun x hx => fixed x hx).trans (List.map_id _)
  rw [hmap]
  exact ext fun x => mem_ofList

theorem Verdict.publishedAddress_of_canonical {a : String} (h : canonicalAddress a = .ok a)
    : publishedAddress a = a := by
  unfold canonicalAddress at h
  split at h
  · next s hs =>
    rw [publishedAddress, hs, ← Except.ok.inj h]
    rfl
  · cases h

/-- The verdict on canonical data reports them as they are. -/
theorem Verdict.of_canonical {p : Published} (canonical : p.Canonical) (e : Expected)
    : TextSet.ofList (p.nameservers.toList.map canonicalName) = p.nameservers
      ∧ TextSet.ofList (p.addresses.toList.map publishedAddress) = p.addresses
      ∧ (Verdict.of e p).nameservers = p.nameservers.toList
      ∧ (Verdict.of e p).addresses = p.addresses.toList := by
  have hnames : TextSet.ofList (p.nameservers.toList.map canonicalName) = p.nameservers :=
    TextSet.ofList_map_of_fixed canonical.nameservers
  have haddresses : TextSet.ofList (p.addresses.toList.map publishedAddress) = p.addresses :=
    TextSet.ofList_map_of_fixed fun a ha =>
      publishedAddress_of_canonical (canonical.addresses a ha)
  exact ⟨hnames, haddresses, by rw [Verdict.of, hnames], by rw [Verdict.of, haddresses]⟩

namespace Expected

/-- The expectation that a domain publishes just what was published. -/
def own (domain : String) (p : Published) : Expected :=
  ⟨domain, some p.nameservers, some p.addresses⟩

/-- Address literals in canonical form stay as they are, by induction on the list. -/
theorem canonicalAddresses_of_fixed {xs : List String}
    (fixed : ∀ a ∈ xs, canonicalAddress a = .ok a)
    : canonicalAddresses xs = .ok xs := by
  induction xs with
  | nil => rfl
  | cons a rest ih =>
      have hrest := ih fun b hb => fixed b (List.mem_cons_of_mem a hb)
      simp [canonicalAddresses, fixed a (by simp), hrest]

/-- Canonical data make an expectation of just these data. -/
theorem create_of_canonical {p : Published} (canonical : p.Canonical) (domain : String)
    : create domain (some p.nameservers.toList) (some p.addresses.toList)
      = .ok (own domain p) := by
  have haddresses : TextSet.ofList p.addresses.toList = p.addresses :=
    TextSet.ext fun x => TextSet.mem_ofList
  simp only [create, Option.map_some, canonicalAddresses_of_fixed canonical.addresses,
    TextSet.ofList_map_of_fixed canonical.nameservers, haddresses]
  rfl

end Expected

/-- Canonical data that are answered on both axes are as their own expectation has them. -/
theorem Verdict.of_own {p : Published} (canonical : p.Canonical) (domain : String)
    (answered : p.nameserversAnswered = true ∧ p.addressesAnswered = true)
    : Verdict.of (.own domain p) p
      = ⟨domain, true, [], [], p.nameservers.toList, p.addresses.toList⟩ := by
  obtain ⟨hnames, haddresses, -, -⟩ := of_canonical canonical (.own domain p)
  simp [Verdict.of, Expected.own, hnames, haddresses, judge, answered, anomalies]

-----------------------------------------------------------------------------------------
-- Audits against their own report
-----------------------------------------------------------------------------------------

namespace Pass

/-- If a lookup finds the same at all times, an audit gives the verdict on it at any time. -/
theorem auditOne_of_found {ε : Type} {lookup : Lookup ε} (timeless : lookup.Timeless)
    {e : Expected} {p : Published} {j : Journal} (found : (lookup e.domain j).1 = .ok p)
    (j' : Journal)
    : (auditOne lookup e j').1 = .ok (.of e p) := by
  have hfound : (lookup e.domain (j'.add (.began e.domain))).1 = .ok p :=
    (timeless e.domain _ j).trans found
  rw [auditOne_fst, hfound]
  rfl

/-- On a steady network, if a lookup of a domain is answered on both axes, then an audit of the
domain against any expectation reports names and addresses that are all in canonical form and
can be expected in their turn: an audit against this expectation, whenever it is made, is a
success without any anomaly and reports the same names and addresses.
-/
theorem report_is_own_expectation {w : Walker} (steady : w.network.Steady) {domain : String}
    {p : Published} {j : Journal} (found : (w.resolve true true domain j).1 = .ok p)
    (answered : p.nameserversAnswered = true ∧ p.addressesAnswered = true) {e : Expected}
    (about : e.domain = domain) (j' : Journal)
    : ∃ v,
        (auditOne w.lookup e j').1 = .ok v
        ∧ (∀ n ∈ v.nameservers, canonicalName n = n)
        ∧ (∀ a ∈ v.addresses, canonicalAddress a = .ok a)
        ∧ ∃ own,
            Expected.create domain (some v.nameservers) (some v.addresses) = .ok own
            ∧ ∀ k,
                (auditOne w.lookup own k).1
                  = .ok ⟨domain, true, [], [], v.nameservers, v.addresses⟩ := by
  have canonical := Walker.canonical_of_resolve steady found
  have timeless := Walker.lookup_timeless steady
  have hlookup : (w.lookup domain j).1 = .ok p := by
    unfold Walker.lookup
    rcases hresolve : w.resolve true true domain j with ⟨landed, k⟩
    rw [hresolve] at found
    subst found
    rfl
  obtain ⟨-, -, hnames, haddresses⟩ := Verdict.of_canonical canonical e
  refine ⟨.of e p, auditOne_of_found timeless (about ▸ hlookup) j', ?_, ?_, .own domain p, ?_⟩
  · rw [hnames]
    exact canonical.nameservers
  · rw [haddresses]
    exact canonical.addresses
  rw [hnames, haddresses]
  refine ⟨Expected.create_of_canonical canonical domain, fun k => ?_⟩
  rw [auditOne_of_found timeless (show (w.lookup (Expected.own domain p).domain j).1 = _ from
    hlookup) k, Verdict.of_own canonical domain answered]

/-- A walker on a network where the one root server publishes a nameserver whose label ends with
a dot, and an address of version 6 that stands for one of version 4.
-/
def dottedWalker : Walker :=
  let mapped : Ipv6 := ⟨[0, 0, 0, 0, 0, 0xffff, 0xc000, 0x0201], rfl⟩
  let route (type : String) (content : Content) : Route :=
    ⟨.udp, "192.0.2.1", "example.", type,
      [⟨.zero,
        .response
          { Response.blank with
            authoritative := true
            answer := [⟨.written "example.", content⟩] }⟩]⟩
  { directory := ⟨[⟨"a.root.", .ofList ["192.0.2.1"], .empty⟩], []⟩
    ledger := .empty
    network := Network.ofRoutes [
      route "NS" (.nameservers [.written "NS\\.."]),
      route "AAAA" (.ipv6 [mapped])]
    manner := .standard
    families := [.known .ipv4]
    useDelegations := true
    maxSteps := 3
    maxDepth := 2 }

/-- What the domain publishes there. -/
def dottedPublished : Published :=
  ⟨.ofList ["ns\\."], .ofList ["::ffff:c000:201"], true, true, none⟩

theorem dottedWalker_report_is_own_expectation
    : (dottedWalker.resolve true true "example" .start).1 = .ok dottedPublished
      ∧ ∃ v,
          (auditOne dottedWalker.lookup ⟨"example", some (.ofList ["ns.other."]), none⟩
              .start).1
            = .ok v
          ∧ (∀ n ∈ v.nameservers, canonicalName n = n)
          ∧ (∀ a ∈ v.addresses, canonicalAddress a = .ok a)
          ∧ ∃ own,
              Expected.create "example" (some v.nameservers) (some v.addresses) = .ok own
              ∧ ∀ k,
                  (auditOne dottedWalker.lookup own k).1
                    = .ok ⟨"example", true, [], [], v.nameservers, v.addresses⟩ := by
  have steady : dottedWalker.network.Steady := Network.steady_ofRoutes (by simp)
  have found : (dottedWalker.resolve true true "example" .start).1 = .ok dottedPublished := by
    decide +kernel
  exact ⟨found, report_is_own_expectation steady found ⟨rfl, rfl⟩ rfl .start⟩

end Pass

end NameserverAudit
