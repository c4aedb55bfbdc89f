import NameserverAudit.Proofs.Name.Reading
import NameserverAudit.Proofs.Walk.Provenance
import NameserverAudit.Proofs.Walk.Start
import NameserverAudit.Proofs.Zone.Families

/-! The origins of what a lookup sends. Main statement: every message of a lookup goes to an
address that the directory lists or that a response brought earlier in the lookup, and asks
about the domain or about a nameserver that a response named earlier in the lookup.
-/

namespace NameserverAudit

/-- The address is one of a root server, or of a nameserver of a delegation. -/
def Zone.Directory.Lists (d : Zone.Directory) (address : String) : Prop :=
  (∃ r ∈ d.roots, ∃ f, address ∈ r.addresses f)
  ∨ ∃ e ∈ d.delegations, ∃ ns, address ∈ e.glueOf ns

/-- A response brought the address, in its answer or along with it, in a record that was heard
since an old history.
-/
def BroughtAddress (network : Network) (old sends : List Sent) (address : String) : Prop :=
  ∃ m r, ∃ s ∈ r.answer ++ r.additional,
    Heard network old sends m r ∧ address ∈ s.content.addresses

/-- A response named a nameserver in its authority section, since an old history, and the
canonical text of the nameserver reads as the name.
-/
def NamedNameserver (network : Network) (old sends : List Sent) (n : DomainName) : Prop :=
  ∃ m r, ∃ s ∈ r.authority, ∃ targets, ∃ t ∈ targets,
    Heard network old sends m r
    ∧ s.content = .nameservers targets
    ∧ DomainName.ofText t.canonicalText = .ok n

namespace Response

/-- The targets of a referral stand in a record set of the authority section, by induction on
its record sets.
-/
theorem mem_of_firstDown {zone name : DomainName} {sets : List RecordSet}
    {referral : Referral} (h : firstDown zone name sets = some referral)
    : ∃ s ∈ sets, s.owner = referral.zone ∧ s.content = .nameservers referral.targets := by
  induction sets with
  | nil => simp [firstDown] at h
  | cons s rest ih =>
      have later (h : firstDown zone name rest = some referral)
          : ∃ s' ∈ s :: rest,
              s'.owner = referral.zone ∧ s'.content = .nameservers referral.targets := by
        obtain ⟨s', hs', hfound⟩ := ih h
        exact ⟨s', List.mem_cons_of_mem s hs', hfound⟩
      simp only [firstDown] at h
      split at h
      · next targets hcontent =>
        split at h
        · rw [← Option.some.inj h]
          exact ⟨s, by simp, rfl, hcontent⟩
        · exact later h
      · exact later h

theorem mem_authority_of_referral? {r : Response} {zone name : DomainName}
    {referral : Referral} (h : r.referral? zone name = some referral)
    : ∃ s ∈ r.authority,
        s.owner = referral.zone ∧ s.content = .nameservers referral.targets := by
  unfold referral? at h
  split at h
  · exact mem_of_firstDown h
  · cases h

theorem mem_additional_of_mem_glueFor {r : Response} {wants : Family → Bool} {ns a : String}
    (h : a ∈ r.glueFor wants ns)
    : ∃ s ∈ r.additional, a ∈ s.content.addresses := by
  obtain ⟨s, hs, ha⟩ := List.mem_flatMap.1 h
  exact ⟨s, (List.mem_filter.1 hs).1, ha⟩

theorem mem_answer_of_mem_addresses {r : Response} {a : String} (h : a ∈ r.addresses)
    : ∃ s ∈ r.answer, a ∈ s.content.addresses := by
  simpa [addresses, mem_addNew] using h

end Response

namespace Walker

variable {w : Walker}

/-- The servers of the cut at the root are root servers, with addresses of wanted families. -/
theorem mem_rootCut {cut : Cut} {s : Server} (h : w.rootCut = .ok cut) (hs : s ∈ cut.servers)
    : ∃ r ∈ w.directory.roots, ∃ f, .known f ∈ w.families ∧ s.address ∈ r.addresses f := by
  obtain ⟨servers, hservers, -, rfl⟩ := rootCut_eq_ok_iff.1 h
  rw [Ledger.mem_ranked] at hs
  obtain ⟨r, hr, -, hfound⟩ := Zone.Directory.mem_servers hservers hs
  exact ⟨r, hr, hfound⟩

/-- A walk starts at root servers or at nameservers of a delegation, with addresses of wanted
families.
-/
theorem mem_startCut {text : String} {cut : Cut} {s : Server} (h : w.startCut text = .ok cut)
    (hs : s ∈ cut.servers)
    : (∃ r ∈ w.directory.roots, ∃ f, .known f ∈ w.families ∧ s.address ∈ r.addresses f)
      ∨ ∃ e ∈ w.directory.delegations,
          s.address ∈ e.glueOf s.name
          ∧ .known (Zone.Delegation.familyOf s.address) ∈ w.families := by
  rcases w.startCut_cases text with ⟨-, start⟩ | ⟨e, -, he, -, start⟩
  · rw [start] at h
    exact .inl (mem_rootCut h hs)
  · rw [start] at h
    obtain rfl := Except.ok.inj h
    rw [Ledger.mem_ranked] at hs
    exact .inr ⟨e, Zone.Directory.mem_of_covering he, Zone.Delegation.mem_servers hs⟩

/-- Addresses come from the directory or from responses; names are the domain's or come from
responses.
-/
theorem sources_listed_or_brought (w : Walker) (old : List Sent) (domain : String)
    : w.Sources old
        (fun sends a => w.directory.Lists a ∨ BroughtAddress w.network old sends a)
        (fun sends n =>
          DomainName.ofText (canonicalName domain) = .ok n
          ∨ NamedNameserver w.network old sends n) where
  address_mono h hlater :=
    h.imp_right fun ⟨m, r, s, hs, hr, ha⟩ =>
      ⟨m, r, s, hs, hr.mono (List.suffix_refl _) hlater, ha⟩
  name_mono h hlater :=
    h.imp_right fun ⟨m, r, s, hs, targets, t, ht, hr, hn⟩ =>
      ⟨m, r, s, hs, targets, t, ht, hr.mono (List.suffix_refl _) hlater, hn⟩
  start := by
    intro text cut sends hcut s hs
    rcases mem_startCut hcut hs with ⟨r, hr, f, -, ha⟩ | ⟨e, he, ha, -⟩
    · exact .inl (.inl ⟨r, hr, f, ha⟩)
    · exact .inl (.inr ⟨e, he, s.name, ha⟩)
  glue := by
    intro sends m r ns hr a ha
    obtain ⟨s, hs, ha⟩ := Response.mem_additional_of_mem_glueFor ha
    exact .inr ⟨m, r, s, List.mem_append_right _ hs, hr, ha⟩
  answer := by
    intro sends m r hr _ a ha
    obtain ⟨s, hs, ha⟩ := Response.mem_answer_of_mem_addresses ha
    exact .inr ⟨m, r, s, List.mem_append_left _ hs, hr, ha⟩
  target := by
    intro sends m r zone asked referral hr hreferral t ht
    obtain ⟨s, hs, -, hcontent⟩ := Response.mem_authority_of_referral? hreferral
    exact .inr ⟨m, r, s, hs, referral.targets, t, ht, hr, hcontent, t.ofText_canonicalText⟩

/-- Whatever comes back, each message of a lookup goes to an address of a root server or of a
delegation, or to one that a response brought earlier in the same lookup; and it asks about the
domain, or about a nameserver that the authority section of a response named earlier in the
same lookup.
-/
theorem resolve_contacts_have_origin (w : Walker) (nameservers addresses : Bool)
    (domain : String) (j : Journal)
    : SentSince
        (fun earlier m =>
          (w.directory.Lists m.server ∨ BroughtAddress w.network j.sends earlier m.server)
          ∧ (DomainName.ofText (canonicalName domain) = .ok m.name
            ∨ NamedNameserver w.network j.sends earlier m.name))
        j.sends (w.resolve nameservers addresses domain j).2.sends := by
  refine (w.sources_listed_or_brought j.sends domain).resolve ?_
  intro q hq
  refine .inl ?_
  unfold Question.ofText at hq
  split at hq
  · next n hn =>
    rw [← Except.ok.inj hq]
    exact hn
  · cases hq

end Walker

end NameserverAudit
