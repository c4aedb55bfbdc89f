import NameserverAudit.Exchange.Procedure
import NameserverAudit.Name.Canonical

/-!
Queries: one question to one server, without asking for recursion. The first message goes over
UDP with an extension; a server that answers it with something malformed is asked once more
without the extension; and a truncated answer is asked for again over TCP, with the extension
as it was last. Only a response that tells of records, or that a name does not exist, answers a
query. The extension announces a payload in sixteen bits, and a question is posed only with a
payload that fits.
-/

namespace NameserverAudit

/-- A name to ask about, with the text that messages show for it. -/
structure Question where
  text : String
  name : DomainName
deriving DecidableEq, Repr

/-- The question about a name, by its canonical text. -/
def Question.ofName (n : DomainName) : Question :=
  ⟨n.canonicalText, n.lowered⟩

def Question.ofText (s : String) : Except NameFault Question :=
  match DomainName.ofText s with
  | .ok n => .ok ⟨s, n⟩
  | .error fault => .error fault

structure Manner where
  timeout : Double
  payload : Int
  port : Int
  /-- Truncated answers are asked for again over TCP. -/
  tcpFallback : Bool
deriving DecidableEq, Repr

/-- Five seconds, a payload that fits common networks, and the port of the name service. -/
def Manner.standard : Manner :=
  ⟨Double.ofInt 5, 1232, 53, true⟩

instance : Inhabited Manner := ⟨.standard⟩

inductive Reason where
  | timeout
  | failed (kind text : String)
  | rcode (r : Rcode)
deriving DecidableEq, Repr

def Reason.text : Reason → String
  | .timeout => "TIMEOUT"
  | .failed kind text => s!"{kind}: {text}"
  | .rcode r => r.text

structure QueryFault where
  server : String
  question : String
  type : RecordType
  reason : Reason
deriving DecidableEq, Repr

def QueryFault.message (f : QueryFault) : String :=
  s!"{f.question}/{f.type.name} @{f.server}: {f.reason.text}"

def Failure.reason : Failure → Reason
  | .timeout => .timeout
  | .malformed kind text | .other kind text => .failed kind text

def Reply.isMalformed : Reply → Bool
  | .failed (.malformed _ _) => true
  | _ => false

def Reply.isTruncated : Reply → Bool
  | .response r => r.truncated
  | _ => false

def Reply.judge : Reply → Except Reason Response
  | .failed f => .error f.reason
  | .response r =>
      if r.rcode = .noError ∨ r.rcode = .nxDomain then .ok r else .error (.rcode r.rcode)

namespace Manner

def message (m : Manner) (transport : Transport) (extended : Bool) (server : String)
    (name : DomainName) (type : RecordType) : Sent :=
  { transport, server, name, type
    recursion := false
    payload := if extended then some m.payload else none
    port := m.port
    timeout := m.timeout }

/-- Asks over UDP, a second time without the extension if the first reply is malformed. The
flag tells whether the last message had the extension. -/
def askingOverUdp (m : Manner) (server : String) (name : DomainName) (type : RecordType)
    : Procedure (Bool × Reply) := do
  let first ← .send (m.message .udp true server name type)
  if first.isMalformed then return (false, ← .send (m.message .udp false server name type))
  else return (true, first)

def asking (m : Manner) (server : String) (name : DomainName) (type : RecordType)
    : Procedure Reply := do
  let (extended, reply) ← m.askingOverUdp server name type
  if m.tcpFallback && reply.isTruncated then .send (m.message .tcp extended server name type)
  else return reply

def querying (m : Manner) (server : String) (question : Question) (type : RecordType)
    : Procedure (Except QueryFault Response) := do
  let reply ← m.asking server question.name type
  match reply.judge with
  | .ok r => return .ok r
  | .error reason => return .error ⟨server, question.text, type, reason⟩

/-- The answer of a server with the milliseconds that it took. -/
def timedQuerying (m : Manner) (server : String) (question : Question) (type : RecordType)
    : Procedure (Except QueryFault (Response × Double)) := do
  let started ← .readClock
  match ← m.querying server question type with
  | .error fault => return .error fault
  | .ok response =>
      let ended ← .readClock
      return .ok (response, (ended.sub started).mul (Double.ofInt 1000))

def askOverUdp (m : Manner) (network : Network) (server : String) (name : DomainName)
    (type : RecordType) (j : Journal) : Bool × Reply × Journal :=
  let ((extended, reply), j) := (m.askingOverUdp server name type).run network j
  (extended, reply, j)

def ask (m : Manner) (network : Network) (server : String) (name : DomainName)
    (type : RecordType) (j : Journal) : Reply × Journal :=
  (m.asking server name type).run network j

def query (m : Manner) (network : Network) (server : String) (question : Question)
    (type : RecordType) (j : Journal) : Except QueryFault Response × Journal :=
  (m.querying server question type).run network j

theorem askOverUdp_eq (m : Manner) (network : Network) (server : String) (name : DomainName)
    (type : RecordType) (j : Journal)
    : m.askOverUdp network server name type j
      = let (first, j) := j.send network (m.message .udp true server name type)
        if first.isMalformed then
          (false, j.send network (m.message .udp false server name type))
        else (true, first, j) := by
  by_cases malformed
      : (j.send network (m.message .udp true server name type)).1.isMalformed = true
  <;> simp [askOverUdp, askingOverUdp, malformed]

theorem ask_eq (m : Manner) (network : Network) (server : String) (name : DomainName)
    (type : RecordType) (j : Journal)
    : m.ask network server name type j
      = let (extended, reply, j) := m.askOverUdp network server name type j
        if m.tcpFallback && reply.isTruncated then
          j.send network (m.message .tcp extended server name type)
        else (reply, j) := by
  rcases h : (m.askingOverUdp server name type).run network j with ⟨⟨extended, reply⟩, k⟩
  by_cases wanted : (m.tcpFallback && reply.isTruncated) = true
  <;> simp only [ask, asking, askOverUdp, Procedure.run_bind, h, wanted, Bool.false_eq_true,
    if_true, if_false, Procedure.run_send, Procedure.run_pure]

theorem query_eq (m : Manner) (network : Network) (server : String) (question : Question)
    (type : RecordType) (j : Journal)
    : m.query network server question type j
      = let (reply, j) := m.ask network server question.name type j
        match reply.judge with
        | .ok r => (.ok r, j)
        | .error reason => (.error ⟨server, question.text, type, reason⟩, j) := by
  rcases h : (m.asking server question.name type).run network j with ⟨reply, k⟩
  cases judged : reply.judge
  <;> simp only [query, querying, ask, Procedure.run_bind, h, judged, Procedure.run_pure]

/-- A query does no more than asking. -/
theorem query_snd (m : Manner) (network : Network) (server : String) (question : Question)
    (type : RecordType) (j : Journal)
    : (m.query network server question type j).2
      = (m.ask network server question.name type j).2 := by
  rw [query_eq]
  dsimp only
  split <;> rfl

end Manner

/-! ### Payloads -/

/-- No message can announce the payload. -/
structure PayloadFault where
  payload : Int
deriving DecidableEq, Repr

def PayloadFault.message (_ : PayloadFault) : String :=
  "class must be an int between >= 0 and <= 65535"

namespace Manner

/-- The manner, if a message can announce its payload. -/
def check (m : Manner) : Except PayloadFault Manner :=
  if 0 ≤ m.payload ∧ m.payload < 0x10000 then .ok m else .error ⟨m.payload⟩

/-- Poses a question: queries a server, or sends nothing if no message can be made. -/
def pose (m : Manner) (network : Network) (server : String) (question : Question)
    (type : RecordType) (j : Journal)
    : Except PayloadFault (Except QueryFault Response) × Journal :=
  match m.check with
  | .error fault => (.error fault, j)
  | .ok m =>
      let (answer, j) := m.query network server question type j
      (.ok answer, j)

/-- Poses a question, and tells how many milliseconds the answer took. The clock is read before
a message is made. -/
def timedPosing (m : Manner) (server : String) (question : Question) (type : RecordType)
    : Procedure (Except PayloadFault (Except QueryFault (Response × Double))) := do
  match m.check with
  | .error fault =>
      let _ ← Procedure.readClock
      return .error fault
  | .ok m => return .ok (← m.timedQuerying server question type)

end Manner

end NameserverAudit
