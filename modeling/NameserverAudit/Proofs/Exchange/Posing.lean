import NameserverAudit.Proofs.Exchange.History

/-! Questions that are posed. With a payload that fits in a message a question is a query; with
any other payload nothing is sent.
-/

namespace NameserverAudit.Manner

/-- A message can announce the payload, which has sixteen bits there. -/
def Fits (m : Manner) : Prop :=
  0 ≤ m.payload ∧ m.payload ≤ 65535

instance (m : Manner) : Decidable m.Fits :=
  inferInstanceAs (Decidable (_ ∧ _))

variable {m : Manner}

theorem check_of_fits (fits : m.Fits) : m.check = .ok m :=
  if_pos ⟨fits.1, Int.lt_add_one_of_le fits.2⟩

theorem check_of_not_fits (misfit : ¬m.Fits) : m.check = .error ⟨m.payload⟩ :=
  if_neg fun h => misfit ⟨h.1, Int.le_of_lt_add_one h.2⟩

variable (network : Network) (server : String) (q : Question) (type : RecordType) (j : Journal)

/-- With a payload that fits, a question is a query. -/
theorem pose_of_fits (fits : m.Fits)
    : m.pose network server q type j
      = (.ok (m.query network server q type j).1, (m.query network server q type j).2) := by
  simp only [pose, check_of_fits fits]

/-- With a payload that does not fit, nothing is done. -/
theorem pose_of_not_fits (misfit : ¬m.Fits)
    : m.pose network server q type j = (.error ⟨m.payload⟩, j) := by
  simp only [pose, check_of_not_fits misfit]

variable (m)

/-- A question that is posed sends messages for it, if any, and the answer came back to one of
them.
-/
theorem pose_asksFor
    : SentSince (fun _ sent => sent.AsksFor server q.name type) j.sends
        (m.pose network server q type j).2.sends
      ∧ ∀ r, (m.pose network server q type j).1 = .ok (.ok r) →
          ∃ sent,
            sent.AsksFor server q.name type
            ∧ Heard network j.sends (m.pose network server q type j).2.sends sent r := by
  by_cases fits : m.Fits
  · obtain ⟨sent, heard⟩ := m.query_asksFor network server q type j
    rw [pose_of_fits network server q type j fits]
    exact ⟨sent, fun r hr => heard r (Except.ok.inj hr)⟩
  · rw [pose_of_not_fits network server q type j fits]
    exact ⟨.refl _ _, by simp⟩

end NameserverAudit.Manner
