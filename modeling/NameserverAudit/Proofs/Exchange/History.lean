import NameserverAudit.Exchange.Query

/-! Histories of messages. A history lists the messages that were sent, last first, so an
earlier history is a suffix of a later one, and what came back to a message is a fact about
the message and the history before it.
-/

namespace NameserverAudit

/-- Since an old history messages were sent that satisfy `P`, each with the history before it. -/
def SentSince (P : List Sent → Sent → Prop) (old new : List Sent) : Prop :=
  old <:+ new ∧ ∀ m earlier, old <:+ earlier → m :: earlier <:+ new → P earlier m

/-- A response to a message came in a history, since an old one. -/
def Heard (network : Network) (old new : List Sent) (m : Sent) (r : Response) : Prop :=
  ∃ earlier,
    old <:+ earlier ∧ m :: earlier <:+ new ∧ (network earlier m).reply = .response r

namespace SentSince

variable {P Q : List Sent → Sent → Prop} {old middle new : List Sent}

theorem refl (P : List Sent → Sent → Prop) (old : List Sent) : SentSince P old old := by
  refine ⟨List.suffix_refl old, ?_⟩
  intro m earlier hold hm
  have hlength := (hold.trans (List.suffix_cons m earlier)).length_le
  have := hm.length_le
  have := hold.length_le
  simp only [List.length_cons] at *
  omega

/-- What was sent since then and up to then was sent since. A message of the longer history
stands in its older part or after it.
-/
theorem trans (h : SentSince P old middle) (h' : SentSince P middle new)
    : SentSince P old new := by
  refine ⟨h.1.trans h'.1, ?_⟩
  intro m earlier hold hm
  rcases List.suffix_or_suffix_of_suffix hm h'.1 with hpart | hpart
  · exact h.2 m earlier hold hpart
  · rcases List.suffix_cons_iff.1 hpart with heq | hpart
    · exact h.2 m earlier hold (heq ▸ List.suffix_refl _)
    · exact h'.2 m earlier hpart hm

theorem single {m : Sent} (h : P old m) : SentSince P old (m :: old) := by
  refine ⟨List.suffix_cons m old, ?_⟩
  intro m' earlier hold hm
  rcases List.suffix_cons_iff.1 hm with heq | hm
  · obtain ⟨rfl, rfl⟩ := List.cons.inj heq
    exact h
  · exact (SentSince.refl P old).2 m' earlier hold hm

/-- A weaker predicate, as far as it is weaker since the old history. -/
theorem imp (h : SentSince P old new)
    (hPQ : ∀ m earlier, old <:+ earlier → P earlier m → Q earlier m)
    : SentSince Q old new :=
  ⟨h.1, fun m earlier hold hm => hPQ m earlier hold (h.2 m earlier hold hm)⟩

end SentSince

/-- Since nothing was sent, a fact about the messages alone is one about all of them. -/
theorem sentSince_nil {P : Sent → Prop} {new : List Sent}
    : SentSince (fun _ => P) [] new ↔ ∀ m ∈ new, P m := by
  constructor
  · intro h m hm
    obtain ⟨later, earlier, rfl⟩ := List.append_of_mem hm
    exact h.2 m earlier List.nil_suffix (List.suffix_append _ _)
  · exact fun h => ⟨List.nil_suffix, fun m earlier _ hm => h m (hm.subset (by simp))⟩

/-- What was heard in a history was heard in every later one, since every earlier one. -/
theorem Heard.mono {network : Network} {older old new newer : List Sent} {m : Sent}
    {r : Response} (h : Heard network old new m r) (hold : older <:+ old) (hnew : new <:+ newer)
    : Heard network older newer m r := by
  obtain ⟨earlier, hearlier, hm, hr⟩ := h
  exact ⟨earlier, hold.trans hearlier, hm.trans hnew, hr⟩

-----------------------------------------------------------------------------------------
-- Queries
-----------------------------------------------------------------------------------------

theorem Reply.eq_response_of_judge {reply : Reply} {r : Response}
    (h : reply.judge = .ok r)
    : reply = .response r := by
  cases reply with
  | failed f => simp [judge] at h
  | response r' =>
      simp only [judge] at h
      split at h
      · rw [Except.ok.inj h]
      · cases h

/-- The message asks a server about a name and a type. -/
def Sent.AsksFor (m : Sent) (server : String) (name : DomainName) (type : RecordType) : Prop :=
  m.server = server ∧ m.name = name ∧ m.type = type

/-- Since an old history messages that satisfy `P` were sent, and a reply came to the last one. -/
def RepliedSince (network : Network) (P : Sent → Prop) (old : List Sent)
    (result : Reply × Journal)
    : Prop :=
  SentSince (fun _ => P) old result.2.sends
  ∧ ∃ m earlier,
      result.2.sends = m :: earlier
      ∧ old <:+ earlier
      ∧ P m
      ∧ result.1 = (network earlier m).reply

theorem RepliedSince.send {network : Network} {P : Sent → Prop} {old : List Sent}
    {j : Journal} {m : Sent} (h : SentSince (fun _ => P) old j.sends) (hm : P m)
    : RepliedSince network P old (j.send network m) := by
  refine ⟨?_, m, j.sends, Journal.sends_send j network m, h.1, hm, rfl⟩
  rw [Journal.sends_send]
  exact h.trans (.single hm)

namespace Manner

variable (manner : Manner) (network : Network) (server : String)

theorem askOverUdp_replied (name : DomainName) (type : RecordType) (j : Journal)
    : RepliedSince network (fun m => m.AsksFor server name type) j.sends
        (manner.askOverUdp network server name type j).2 := by
  have first : RepliedSince network (fun m => m.AsksFor server name type) j.sends
      (j.send network (manner.message .udp true server name type)) :=
    .send (.refl _ _) ⟨rfl, rfl, rfl⟩
  rw [askOverUdp_eq]
  dsimp only
  split
  · exact .send first.1 ⟨rfl, rfl, rfl⟩
  · exact first

/-- Messages are sent for a question, and the reply is the one to the last of them. -/
theorem ask_replied (name : DomainName) (type : RecordType) (j : Journal)
    : RepliedSince network (fun m => m.AsksFor server name type) j.sends
        (manner.ask network server name type j) := by
  have udp := manner.askOverUdp_replied network server name type j
  rw [ask_eq]
  dsimp only
  split
  · exact .send udp.1 ⟨rfl, rfl, rfl⟩
  · exact udp

/-- A query sends messages for its question, and its answer came back to one of them. -/
theorem query_asksFor (q : Question) (type : RecordType) (j : Journal)
    : SentSince (fun _ m => m.AsksFor server q.name type) j.sends
        (manner.query network server q type j).2.sends
      ∧ ∀ r, (manner.query network server q type j).1 = .ok r →
          ∃ m,
            m.AsksFor server q.name type
            ∧ Heard network j.sends (manner.query network server q type j).2.sends m r := by
  obtain ⟨hsince, m, earlier, hsends, hold, hasks, hreply⟩ :=
    manner.ask_replied network server q.name type j
  rw [query_snd]
  refine ⟨hsince, fun r hr => ⟨m, hasks, earlier, hold, hsends ▸ List.suffix_refl _, ?_⟩⟩
  rw [← hreply]
  rw [query_eq] at hr
  dsimp only at hr
  split at hr
  · next response hjudge =>
    rw [← Except.ok.inj hr]
    exact Reply.eq_response_of_judge hjudge
  · cases hr

end Manner

end NameserverAudit
