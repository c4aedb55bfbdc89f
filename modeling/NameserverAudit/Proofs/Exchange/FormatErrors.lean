import NameserverAudit.Proofs.Exchange.Posing

/-! Servers that cannot read the extension. Such a server may send a response with the code of a
format error, or something that is malformed itself. Main statement: the question is asked once
more without the extension exactly if the first reply is malformed; a response with the code is
taken as it is, so the query ends with a fault, unless it is truncated and TCP gives an answer.
-/

namespace NameserverAudit

/-- The server could not read the message. -/
def Rcode.formatError : Rcode := ⟨1⟩

namespace Manner

variable (m : Manner) (network : Network) (server : String) (q : Question) (type : RecordType)
  (j : Journal)

-----------------------------------------------------------------------------------------
-- Asking without the extension
-----------------------------------------------------------------------------------------

/-- What a query makes of the reply to its last message. -/
def settled (server : String) (q : Question) (type : RecordType) (reply : Reply)
    : Except QueryFault Response :=
  match reply.judge with
  | .ok r => .ok r
  | .error reason => .error ⟨server, q.text, type, reason⟩

/-- The question is asked over UDP without the extension, and if that is wanted and the reply is
truncated, over TCP without it. The last reply decides.
-/
def plainQuery : Except QueryFault Response × Journal :=
  let (reply, j) := j.send network (m.message .udp false server q.name type)
  let (reply, j) :=
    if m.tcpFallback && reply.isTruncated then
      j.send network (m.message .tcp false server q.name type)
    else (reply, j)
  (settled server q type reply, j)

/-- What comes back to the first message of a query, and the journal after it. -/
def opening : Reply × Journal :=
  j.send network (m.message .udp true server q.name type)

theorem query_eq_settled
    : m.query network server q type j
      = (settled server q type (m.ask network server q.name type j).1,
          (m.ask network server q.name type j).2) := by
  rw [query_eq]
  unfold settled
  dsimp only
  split <;> simp_all

/-- After a malformed reply the query goes on without the extension. -/
theorem query_of_malformed (h : (m.opening network server q type j).1.isMalformed = true)
    : m.query network server q type j
      = m.plainQuery network server q type (m.opening network server q type j).2 := by
  unfold opening at h ⊢
  rw [query_eq_settled]
  simp only [ask_eq, askOverUdp_eq, h, if_true, plainQuery]

/-- Any other reply is the last one over UDP; if it is truncated and that is wanted, TCP follows
with the extension.
-/
theorem query_of_not_malformed
    (h : (m.opening network server q type j).1.isMalformed = false)
    : m.query network server q type j
      = if m.tcpFallback && (m.opening network server q type j).1.isTruncated then
          let (reply, last) := (m.opening network server q type j).2.send network
            (m.message .tcp true server q.name type)
          (settled server q type reply, last)
        else
          (settled server q type (m.opening network server q type j).1,
            (m.opening network server q type j).2) := by
  unfold opening at h ⊢
  rw [query_eq_settled]
  simp only [ask_eq, askOverUdp_eq, h, Bool.false_eq_true, if_false]
  split <;> rfl

-----------------------------------------------------------------------------------------
-- Which replies are answered by asking once more
-----------------------------------------------------------------------------------------

/-- A query without the extension sends a message over UDP without it, and perhaps one over TCP
without it.
-/
theorem plainQuery_sends
    : let plain := m.message .udp false server q.name type
      (m.plainQuery network server q type j).2.sends = plain :: j.sends
      ∨ (m.plainQuery network server q type j).2.sends
        = m.message .tcp false server q.name type :: plain :: j.sends := by
  dsimp only [plainQuery]
  split
  · exact .inr (by simp only [Journal.sends_send])
  · exact .inl (Journal.sends_send ..)

/-- The query goes on as one without the extension exactly if the first reply is malformed: if
it is not, a message over UDP without the extension is missing.
-/
theorem query_eq_plainQuery_iff
    : m.query network server q type j
        = m.plainQuery network server q type (m.opening network server q type j).2
      ↔ (m.opening network server q type j).1.isMalformed = true := by
  refine ⟨fun same => ?_, m.query_of_malformed network server q type j⟩
  cases fine : (m.opening network server q type j).1.isMalformed with
  | true => rfl
  | false =>
      exfalso
      have sends := congrArg (fun run => run.2.sends) same
      rw [m.query_of_not_malformed network server q type j fine] at sends
      have plain :=
        m.plainQuery_sends network server q type (m.opening network server q type j).2
      dsimp only at sends plain
      split at sends
      · -- one more message over TCP, where the query without the extension sends one over UDP
        rw [Journal.sends_send] at sends
        rcases plain with plain | plain
        · rw [plain] at sends
          have transports := congrArg Sent.transport (List.cons.inj sends).1
          cases transports
        · rw [plain] at sends
          have lengths := congrArg List.length sends
          simp only [List.length_cons] at lengths
          omega
      · -- no more messages
        rcases plain with plain | plain
        all_goals
          rw [plain] at sends
          have lengths := congrArg List.length sends
          simp only [List.length_cons] at lengths
          omega

/-- A response with the code of a format error is no answer. -/
theorem settled_of_formatError {r : Response} (h : r.rcode = .formatError)
    : settled server q type (.response r)
      = .error ⟨server, q.text, type, .rcode .formatError⟩ := by
  have refused : ¬(r.rcode = .noError ∨ r.rcode = .nxDomain) := by
    rw [h]
    decide
  simp only [settled, Reply.judge, refused, if_false]
  rw [h]

/-- What a question comes to if it is asked once more without the extension, whatever the first
reply is.
-/
def retried : Except PayloadFault (Except QueryFault Response) × Journal :=
  let (answer, last) :=
    m.plainQuery network server q type (m.opening network server q type j).2
  (.ok answer, last)

/-- A question that is posed with a payload that fits is asked once more without the extension,
with all that comes of it, exactly if the first reply is malformed. A response with the code of a
format error is not answered like that: the query ends with a fault that gives this code, or, if
the response is truncated and TCP is wanted, as the reply over TCP has it, to a message with the
extension.
-/
theorem pose_retries_iff (fits : 0 ≤ m.payload ∧ m.payload ≤ 65535)
    : (m.pose network server q type j = m.retried network server q type j
        ↔ (m.opening network server q type j).1.isMalformed = true)
      ∧ ∀ r, (m.opening network server q type j).1 = .response r → r.rcode = .formatError →
          m.pose network server q type j
            = if m.tcpFallback && r.truncated then
                let (reply, last) := (m.opening network server q type j).2.send network
                  (m.message .tcp true server q.name type)
                (.ok (settled server q type reply), last)
              else
                (.ok (.error ⟨server, q.text, type, .rcode .formatError⟩),
                  (m.opening network server q type j).2) := by
  rw [pose_of_fits network server q type j fits]
  constructor
  · rw [← m.query_eq_plainQuery_iff network server q type j]
    constructor
    · intro same
      obtain ⟨answer, last⟩ := Prod.mk.inj same
      exact Prod.ext (Except.ok.inj answer) last
    · intro same
      rw [same]
      rfl
  · intro r first code
    have fine : (m.opening network server q type j).1.isMalformed = false := by
      rw [first]
      rfl
    rw [m.query_of_not_malformed network server q type j fine, first]
    by_cases truncated : (m.tcpFallback && r.truncated) = true
    · simp only [Reply.isTruncated, truncated, if_true]
    · simp only [Reply.isTruncated, truncated, Bool.false_eq_true, if_false,
        settled_of_formatError server q type code]

-----------------------------------------------------------------------------------------
-- A server that answers without the extension only
-----------------------------------------------------------------------------------------

/-- A network whose servers refuse every message with the extension, and answer every other. -/
def plainNetwork : Network := fun _ m =>
  let code : Rcode := if m.payload.isSome then .formatError else .noError
  ⟨.zero, .response ⟨true, false, code, [], [], []⟩⟩

theorem plainNetwork_retries_iff
    : let q : Question := ⟨".", .root⟩
      let first := Manner.standard.opening plainNetwork "192.0.2.1" q .ns .start
      (0 ≤ Manner.standard.payload ∧ Manner.standard.payload ≤ 65535)
      ∧ (Manner.standard.pose plainNetwork "192.0.2.1" q .ns .start
            = Manner.standard.retried plainNetwork "192.0.2.1" q .ns .start
          ↔ first.1.isMalformed = true)
      ∧ ∀ r, first.1 = .response r → r.rcode = .formatError →
          Manner.standard.pose plainNetwork "192.0.2.1" q .ns .start
            = if Manner.standard.tcpFallback && r.truncated then
                let (reply, last) := first.2.send plainNetwork
                  (Manner.standard.message .tcp true "192.0.2.1" q.name .ns)
                (.ok (settled "192.0.2.1" q .ns reply), last)
              else
                (.ok (.error ⟨"192.0.2.1", q.text, .ns, .rcode .formatError⟩), first.2) := by
  have fits : 0 ≤ Manner.standard.payload ∧ Manner.standard.payload ≤ 65535 := by decide
  exact ⟨fits, pose_retries_iff .standard plainNetwork "192.0.2.1" ⟨".", .root⟩ .ns .start fits⟩

/-- The server says that it cannot read the message with the extension, and would answer without
it; but it is sent nothing more, and the query has a fault.
-/
theorem plainNetwork_not_retried
    : let q : Question := ⟨".", .root⟩
      let first := Manner.standard.opening plainNetwork "192.0.2.1" q .ns .start
      let posed := Manner.standard.pose plainNetwork "192.0.2.1" q .ns .start
      first.1 = .response ⟨true, false, .formatError, [], [], []⟩
      ∧ (Manner.standard.plainQuery plainNetwork "192.0.2.1" q .ns first.2).1
        = .ok ⟨true, false, .noError, [], [], []⟩
      ∧ posed.1 = .ok (.error ⟨"192.0.2.1", ".", .ns, .rcode .formatError⟩)
      ∧ posed.2.sends = [Manner.standard.message .udp true "192.0.2.1" .root .ns] := by
  intro q first posed
  exact ⟨rfl, rfl, rfl, rfl⟩

end Manner

end NameserverAudit
