import NameserverAudit.Proofs.Exchange.Posing

/-! What a query sends, and what it makes of the replies. Main statement: a question that is
posed with a payload that fits is asked over UDP with the extension, once more without it exactly
if the first reply is malformed, and then over TCP exactly if the last reply is truncated and
this is wanted; the last reply of all decides.
-/

namespace NameserverAudit

/-- Messages, each with what came back to it, from first to last. -/
abbrev Transcript := List (Sent × Reply)

/-- From one history to another the messages of a transcript were sent, and got these replies. -/
inductive Transcript.Records (network : Network) : List Sent → Transcript → List Sent → Prop
  | nothing (sends : List Sent) : Records network sends [] sends
  | exchange {sends later : List Sent} {rest : Transcript} (m : Sent)
      (h : Records network (m :: sends) rest later)
      : Records network sends ((m, (network sends m).reply) :: rest) later

/-- One more message at the end of a transcript, by induction on what came before. -/
theorem Transcript.Records.send {network : Network} {sends : List Sent} {t : Transcript}
    {j : Journal} (h : Records network sends t j.sends) (m : Sent)
    : Records network sends (t ++ [(m, (j.send network m).1)]) (j.send network m).2.sends := by
  rw [Journal.sends_send]
  generalize hlater : j.sends = later at h
  induction h with
  | nothing sends =>
      subst hlater
      exact .exchange m (.nothing _)
  | exchange first _ ih => exact .exchange first (ih hlater)

/-- Why a reply is no answer to a query, in words. -/
def Reply.refusal? : Reply → Option String
  | .response r =>
      if r.rcode = .noError ∨ r.rcode = .nxDomain then none else some r.rcode.text
  | .failed .timeout => some "TIMEOUT"
  | .failed (.malformed kind text) | .failed (.other kind text) => some s!"{kind}: {text}"

/-- A reply is an answer just if it is a response with one of two codes, and otherwise the
reason tells what is wrong with it.
-/
theorem Reply.judge_spec (reply : Reply)
    : (∀ r, reply.judge = .ok r ↔
        reply = .response r ∧ (r.rcode = .noError ∨ r.rcode = .nxDomain))
      ∧ ∀ reason, reply.judge = .error reason → reply.refusal? = some reason.text := by
  rcases reply with r | (- | ⟨kind, text⟩ | ⟨kind, text⟩)
  · by_cases answers : r.rcode = .noError ∨ r.rcode = .nxDomain
    · refine ⟨fun r' => ?_, by simp [judge, answers]⟩
      simp only [judge, answers, if_true, Except.ok.injEq, response.injEq]
      exact ⟨fun h => ⟨h, h ▸ answers⟩, And.left⟩
    · refine ⟨fun r' => ?_, fun reason h => ?_⟩
      · simp only [judge, answers, if_false, reduceCtorEq, response.injEq, false_iff]
        exact fun h => answers (h.1 ▸ h.2)
      · simp only [judge, answers, if_false, Except.error.injEq] at h
        simp [refusal?, answers, ← h, Reason.text]
  all_goals
    refine ⟨fun r => by simp [judge], fun reason h => ?_⟩
    rw [← Except.error.inj h]
    rfl

namespace Manner

/-- The transport discipline of a query with its messages over UDP and over TCP. -/
structure Disciplined (m : Manner) (server : String) (q : Question) (type : RecordType)
    (udp tcp : Transcript) (answer : Except QueryFault Response)
    : Prop where
  /-- Every message asks the question and none asks for recursion. -/
  asks : ∀ e ∈ udp ++ tcp, e.1.AsksFor server q.name type ∧ e.1.recursion = false
  overUdp : ∀ e ∈ udp, e.1.transport = .udp
  overTcp : ∀ e ∈ tcp, e.1.transport = .tcp
  /-- One message announces the payload; another one, without the extension, follows exactly if
  the reply to the first is malformed. -/
  retry : ∃ first : Sent × Reply,
    first.1.payload = some m.payload
    ∧ (udp = [first] ∧ first.2.isMalformed = false
      ∨ ∃ second : Sent × Reply,
          udp = [first, second] ∧ first.2.isMalformed = true ∧ second.1.payload = none)
  /-- One message goes over TCP exactly if that is wanted and the last reply over UDP is
  truncated, and it has the extension just if the last one over UDP had it. -/
  fallback : ∀ last, udp.getLast? = some last →
    tcp = [] ∧ (m.tcpFallback && last.2.isTruncated) = false
    ∨ ∃ e : Sent × Reply,
        tcp = [e]
        ∧ m.tcpFallback = true
        ∧ last.2.isTruncated = true
        ∧ e.1.payload = last.1.payload
  /-- The last reply is the answer, or tells why there is none. -/
  settles : ∃ last,
    (udp ++ tcp).getLast? = some last
    ∧ (∀ r, answer = .ok r ↔
        last.2 = .response r ∧ (r.rcode = .noError ∨ r.rcode = .nxDomain))
    ∧ ∀ fault, answer = .error fault →
        fault.server = server
        ∧ fault.question = q.text
        ∧ fault.type = type
        ∧ last.2.refusal? = some fault.reason.text

/-- What was sent over UDP: one message with the extension, or after a malformed reply another
one without it. The flag tells which one was the last, and the reply is the one to it.
-/
inductive OverUdp (m : Manner) (server : String) (name : DomainName) (type : RecordType)
    : Transcript → Bool → Reply → Prop
  | once {reply : Reply} (h : reply.isMalformed = false)
      : OverUdp m server name type [(m.message .udp true server name type, reply)] true reply
  | again {first second : Reply} (h : first.isMalformed = true)
      : OverUdp m server name type
          [(m.message .udp true server name type, first),
            (m.message .udp false server name type, second)]
          false second

variable (m : Manner) (network : Network) (server : String)

theorem askOverUdp_overUdp (name : DomainName) (type : RecordType) (j : Journal)
    : ∃ udp : Transcript,
        udp.Records network j.sends (m.askOverUdp network server name type j).2.2.sends
        ∧ OverUdp m server name type udp (m.askOverUdp network server name type j).1
            (m.askOverUdp network server name type j).2.1 := by
  have nothing : Transcript.Records network j.sends [] j.sends := .nothing j.sends
  have first := nothing.send (m.message .udp true server name type)
  rw [askOverUdp_eq]
  dsimp only
  split
  · next malformed => exact ⟨_, first.send _, .again malformed⟩
  · next fine => exact ⟨_, first, .once (by simpa using fine)⟩

/-- Asking sends what is due over UDP, and another message over TCP if the last reply calls for
it; the reply is the one to the last message.
-/
theorem ask_transcript (name : DomainName) (type : RecordType) (j : Journal)
    : ∃ (udp tcp : Transcript) (extended : Bool) (reply : Reply),
        (udp ++ tcp).Records network j.sends (m.ask network server name type j).2.sends
        ∧ OverUdp m server name type udp extended reply
        ∧ (tcp = [] ∧ (m.tcpFallback && reply.isTruncated) = false
            ∧ (m.ask network server name type j).1 = reply
          ∨ tcp = [(m.message .tcp extended server name type,
              (m.ask network server name type j).1)]
            ∧ (m.tcpFallback && reply.isTruncated) = true) := by
  obtain ⟨udp, records, overUdp⟩ :=
    m.askOverUdp_overUdp network server name type j
  rw [ask_eq]
  rcases hudp : m.askOverUdp network server name type j with ⟨extended, reply, j'⟩
  rw [hudp] at records overUdp
  dsimp only at records overUdp ⊢
  split
  · next wanted => exact ⟨udp, _, extended, reply, records.send _, overUdp, .inr ⟨rfl, wanted⟩⟩
  · next unwanted =>
    refine ⟨udp, [], extended, reply, by rwa [List.append_nil], overUdp, .inl ⟨rfl, ?_, rfl⟩⟩
    simpa only [Bool.not_eq_true] using unwanted

/-- What was sent over UDP keeps the discipline of retries, and ends with the message that the
flag tells of.
-/
theorem OverUdp.keeps {m : Manner} {server : String} {name : DomainName} {type : RecordType}
    {udp : Transcript} {extended : Bool} {reply : Reply}
    (h : OverUdp m server name type udp extended reply)
    : udp.getLast? = some (m.message .udp extended server name type, reply)
      ∧ (∀ e ∈ udp, ∃ b, e.1 = m.message .udp b server name type)
      ∧ ∃ first : Sent × Reply,
          first.1.payload = some m.payload
          ∧ (udp = [first] ∧ first.2.isMalformed = false
            ∨ ∃ second : Sent × Reply,
                udp = [first, second]
                ∧ first.2.isMalformed = true
                ∧ second.1.payload = none) := by
  cases h with
  | once fine => exact ⟨rfl, by simp, _, rfl, .inl ⟨rfl, fine⟩⟩
  | again malformed => exact ⟨rfl, by simp, _, rfl, .inr ⟨_, rfl, malformed, rfl⟩⟩

/-- A query is settled by the reply to its last message. -/
theorem query_settles (q : Question) (type : RecordType) (j : Journal)
    : (∀ r, (m.query network server q type j).1 = .ok r ↔
        (m.ask network server q.name type j).1 = .response r
        ∧ (r.rcode = .noError ∨ r.rcode = .nxDomain))
      ∧ ∀ fault, (m.query network server q type j).1 = .error fault →
          fault.server = server
          ∧ fault.question = q.text
          ∧ fault.type = type
          ∧ (m.ask network server q.name type j).1.refusal? = some fault.reason.text := by
  rcases hask : m.ask network server q.name type j with ⟨last, j'⟩
  obtain ⟨answers, refuses⟩ := last.judge_spec
  rw [query_eq]
  simp only [hask]
  split
  · next r hjudge =>
    refine ⟨fun r' => ?_, by simp⟩
    rw [← answers r', hjudge]
    simp only [Except.ok.injEq]
  · next reason hjudge =>
    refine ⟨fun r' => ?_, fun fault h => ?_⟩
    · rw [← answers r', hjudge]
      simp
    · rw [← Except.error.inj h]
      exact ⟨rfl, rfl, rfl, refuses reason hjudge⟩

/-- The messages of a query are sent one after the other and keep the transport discipline. -/
theorem query_disciplined (q : Question) (type : RecordType) (j : Journal)
    : ∃ udp tcp : Transcript,
        (udp ++ tcp).Records network j.sends (m.query network server q type j).2.sends
        ∧ m.Disciplined server q type udp tcp (m.query network server q type j).1 := by
  obtain ⟨udp, tcp, extended, reply, records, sent, htcp⟩ :=
    m.ask_transcript network server q.name type j
  obtain ⟨hlast, hudp, retry⟩ := sent.keeps
  rw [query_snd]
  refine ⟨udp, tcp, records, ?_⟩
  have asks (t : Transport) (b : Bool)
      : (m.message t b server q.name type).AsksFor server q.name type
        ∧ (m.message t b server q.name type).recursion = false :=
    ⟨⟨rfl, rfl, rfl⟩, rfl⟩
  have overUdp : ∀ e ∈ udp, e.1.transport = .udp := by
    intro e he
    obtain ⟨b, heq⟩ := hudp e he
    exact heq ▸ rfl
  rcases htcp with ⟨rfl, unwanted, hreply⟩ | ⟨rfl, wanted⟩
  · constructor
    case asks =>
      intro e he
      obtain ⟨b, heq⟩ := hudp e (by simpa using he)
      exact heq ▸ asks .udp b
    case overUdp => exact overUdp
    case overTcp => simp
    case retry => exact retry
    case fallback =>
      intro last h
      obtain rfl := Option.some.inj (hlast.symm.trans h)
      exact .inl ⟨rfl, unwanted⟩
    case settles =>
      refine ⟨_, by rwa [List.append_nil], ?_⟩
      rw [← hreply]
      exact m.query_settles network server q type j
  · constructor
    case asks =>
      intro e he
      rcases List.mem_append.1 he with he | he
      · obtain ⟨b, heq⟩ := hudp e he
        exact heq ▸ asks .udp b
      · exact List.mem_singleton.1 he ▸ asks .tcp extended
    case overUdp => exact overUdp
    case overTcp =>
      intro e he
      exact List.mem_singleton.1 he ▸ rfl
    case retry => exact retry
    case fallback =>
      intro last h
      obtain rfl := Option.some.inj (hlast.symm.trans h)
      rw [Bool.and_eq_true] at wanted
      exact .inr ⟨_, rfl, wanted.1, wanted.2, rfl⟩
    case settles =>
      exact ⟨_, List.getLast?_concat, m.query_settles network server q type j⟩

/-- A question that is posed with a payload of sixteen bits is queried, whatever comes back:
there is an answer or a fault of the query, and the messages keep the transport discipline. With
any other payload nothing is sent, and the payload is the fault.
-/
theorem pose_disciplined (m : Manner) (network : Network) (server : String) (q : Question)
    (type : RecordType) (j : Journal)
    : (0 ≤ m.payload ∧ m.payload ≤ 65535)
        ∧ (∃ (answer : Except QueryFault Response) (udp tcp : Transcript),
            (m.pose network server q type j).1 = .ok answer
            ∧ (udp ++ tcp).Records network j.sends (m.pose network server q type j).2.sends
            ∧ m.Disciplined server q type udp tcp answer)
      ∨ ¬(0 ≤ m.payload ∧ m.payload ≤ 65535)
        ∧ m.pose network server q type j = (.error ⟨m.payload⟩, j) := by
  by_cases fits : m.Fits
  · obtain ⟨udp, tcp, records, disciplined⟩ :=
      m.query_disciplined network server q type j
    rw [pose_of_fits network server q type j fits]
    exact .inl ⟨fits, _, udp, tcp, rfl, records, disciplined⟩
  · exact .inr ⟨fits, pose_of_not_fits network server q type j fits⟩

/-- With a payload of 70000 nothing is sent to a server that would answer, and there is neither
an answer nor a fault of the query.
-/
theorem widePayload_not_queried
    : let wide : Manner := { Manner.standard with payload := 70000 }
      let network : Network := fun _ _ =>
        ⟨.zero, .response ⟨true, false, .noError, [], [], []⟩⟩
      let posed := wide.pose network "192.0.2.1" ⟨".", .root⟩ .ns .start
      (¬∃ answer, posed.1 = .ok answer) ∧ posed.2.sends = [] := by
  intro wide network posed
  have hposed : posed = (.error ⟨70000⟩, .start) := rfl
  rw [hposed]
  exact ⟨by simp, rfl⟩

end Manner

end NameserverAudit
