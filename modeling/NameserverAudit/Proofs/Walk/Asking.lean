import NameserverAudit.Proofs.Exchange.Posing
import NameserverAudit.Walk.Basic

/-! One question of a walk. It is a query, unless no message can announce the payload. -/

namespace NameserverAudit.Walker

variable (w : Walker) (server : Server) (q : Question) (type : RecordType) (j : Journal)

/-- With a payload that fits, asking is a query. -/
theorem ask_of_fits (fits : w.manner.Fits)
    : w.ask server q type j
      = (.ok (w.manner.query w.network server.address q type j).1,
          (w.manner.query w.network server.address q type j).2) := by
  rw [ask, Manner.pose_of_fits _ _ _ _ _ fits]

/-- With a payload that does not fit, asking does nothing, and the walk is refused. -/
theorem ask_of_not_fits (misfit : ¬w.manner.Fits)
    : w.ask server q type j = (.error (.payload ⟨w.manner.payload⟩), j) := by
  rw [ask, Manner.pose_of_not_fits _ _ _ _ _ misfit]

/-- Asking sends messages for the question, if any, and the answer came back to one of them. -/
theorem ask_asksFor
    : SentSince (fun _ sent => sent.AsksFor server.address q.name type) j.sends
        (w.ask server q type j).2.sends
      ∧ ∀ r, (w.ask server q type j).1 = .ok (.ok r) →
          ∃ sent,
            sent.AsksFor server.address q.name type
            ∧ Heard w.network j.sends (w.ask server q type j).2.sends sent r := by
  obtain ⟨sent, heard⟩ := w.manner.pose_asksFor w.network server.address q type j
  unfold ask
  rcases posed : w.manner.pose w.network server.address q type j with ⟨fault | answer, k⟩
  all_goals rw [posed] at sent heard
  · exact ⟨sent, by simp⟩
  · exact ⟨sent, fun r hr => heard r (congrArg Except.ok (Except.ok.inj hr))⟩

end NameserverAudit.Walker
