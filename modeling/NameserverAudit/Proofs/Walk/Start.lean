import NameserverAudit.Proofs.Zone.Covering
import NameserverAudit.Walk.Basic

/-! The start of a walk. Main statements: a walk starts at the servers of the delegation that
covers the name or else at the root servers, and in either case at a zone that contains the name.
-/

namespace NameserverAudit.Walker

variable {w : Walker}

theorem rootCut_eq_ok_iff {cut : Cut}
    : w.rootCut = .ok cut
      ↔ ∃ servers,
          w.directory.servers w.families = .ok servers
          ∧ servers ≠ []
          ∧ cut = ⟨.root, w.ledger.ranked servers⟩ := by
  unfold rootCut
  rcases w.directory.servers w.families with family | ⟨- | ⟨first, more⟩⟩ <;> simp [eq_comm]

/-- There is no cut at the root if a family does not exist, or if there are no root servers. -/
theorem rootCut_eq_error_iff {fault : WalkFault}
    : w.rootCut = .error fault
      ↔ (∃ family,
          w.directory.servers w.families = .error family
          ∧ fault = .refused (.unknownFamily family))
        ∨ w.directory.servers w.families = .ok []
          ∧ fault = .unresolved ⟨.zone .root, .noRoots⟩ := by
  unfold rootCut
  rcases w.directory.servers w.families with family | ⟨- | ⟨first, more⟩⟩ <;> simp [eq_comm]

/-- A walk starts at the root, unless delegations are asked for and the one that covers the name
has servers. Then it starts there.
-/
theorem startCut_cases (w : Walker) (name : String)
    : (∀ d, w.useDelegations = true → w.directory.delegationFor name = some d →
          d.servers w.families = [])
        ∧ w.startCut name = w.rootCut
      ∨ ∃ d,
          w.useDelegations = true
          ∧ w.directory.delegationFor name = some d
          ∧ d.servers w.families ≠ []
          ∧ w.startCut name = .ok ⟨d.name, w.ledger.ranked (d.servers w.families)⟩ := by
  unfold startCut
  by_cases used : w.useDelegations = true
  · rcases hd : w.directory.delegationFor name with - | d
    · simp
    · rcases hservers : d.servers w.families with - | ⟨first, more⟩ <;> simp [used, hservers]
  · simp [used]

/-- A walk to a name of plain text starts at a zone that contains the name: at the root, or at
the delegation that covers its text.
-/
theorem isWithin_startCut {text : String} {n : DomainName} {cut : Cut}
    (plain : DomainName.IsPlain text.toList) (hcanonical : canonicalName text = text)
    (hn : DomainName.ofText text = .ok n) (h : w.startCut text = .ok cut)
    : n.isWithin cut.zone = true := by
  rcases w.startCut_cases text with ⟨-, start⟩ | ⟨d, -, hd, -, start⟩
  · rw [start] at h
    obtain ⟨servers, -, -, rfl⟩ := rootCut_eq_ok_iff.1 h
    exact n.isWithin_root
  · rw [start] at h
    obtain rfl := Except.ok.inj h
    exact Zone.Directory.isWithin_of_delegationFor plain hcanonical hn hd

/-- A walk that does not start tells of missing root servers, not of too many steps. -/
theorem startCut_cause {text : String} {u : Unresolved}
    (h : w.startCut text = .error (.unresolved u))
    : u.cause = .noRoots := by
  rcases w.startCut_cases text with ⟨-, start⟩ | ⟨d, -, -, -, start⟩
  · rw [start] at h
    rcases rootCut_eq_error_iff.1 h with ⟨family, -, refused⟩ | ⟨-, ended⟩
    · cases refused
    · obtain rfl := WalkFault.unresolved.inj ended
      rfl
  · rw [start] at h
    cases h

end NameserverAudit.Walker
