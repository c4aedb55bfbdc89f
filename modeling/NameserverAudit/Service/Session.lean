import NameserverAudit.Auditor
import NameserverAudit.Report.Results
import NameserverAudit.Service.Answer
import NameserverAudit.Surroundings

/-!
A session of the audit service. The auditor is set up when the first request needs it: it
probes the root servers and writes its ledger, and all later requests share it. A set-up that
fails is tried again with the next request.
-/

namespace NameserverAudit.Service

structure Session where
  disk : Disk
  auditor : Option Auditor
  journal : Journal

inductive Fault where
  | run (fault : RunFault)
  /-- A latency is infinite or undefined, which an answer cannot tell. -/
  | untellable
deriving DecidableEq, Repr

def Fault.message : Fault → String
  | .run fault => fault.message
  | .untellable => "Out of range float values are not JSON compliant"

/-- What a request finds when it needs the auditor. -/
inductive Readiness where
  | ready (a : Auditor)
  | down (message : String)
  | broken (fault : RunFault)

/-- How much a service tells, by its environment. -/
def level (env : Environment) : Except Reading.IntFault Level :=
  match (env.value? "DNS_AUDIT_VERBOSE").filter fun raw => !raw.isEmpty with
  | none => .ok (Level.ofCount 0)
  | some raw =>
      match Reading.int raw with
      | .error fault => .error fault
      | .ok n => .ok (Level.ofCount n)

namespace Session

def start (disk : Disk) : Session :=
  ⟨disk, none, .start⟩

/-- An auditor by the settings of the environment. -/
def build (s : Surroundings) (v : Session) : Except RunFault Auditor × Session :=
  match Settings.ofEnvironment s.environment with
  | .error fault => (.error (.settings fault), v)
  | .ok settings =>
      let (r, journal) := Auditor.setUp settings s.network v.disk v.journal
      (r, { v with journal })

/-- Writes the ledger; that it cannot be written is only noticed. -/
def saveLedger (a : Auditor) (v : Session) : Session :=
  match a.save none v.disk with
  | .error fault => { v with journal := v.journal.notice (.ledgerNotWritten fault.message) }
  | .ok disk => { v with disk }

/-- The auditor of the session, set up if there is none yet. -/
def ready (s : Surroundings) (v : Session) : Readiness × Session :=
  match v.auditor with
  | some a => (.ready a, v)
  | none =>
      match build s v with
      | (.error fault, v) =>
          if fault.isForeseen then
            (.down fault.message,
              { v with journal := v.journal.notice (.serviceDown fault.message) })
          else (.broken fault, v)
      | (.ok a, v) =>
          match a.probe s.now false v.journal with
          | (.error fault, _, journal) => (.broken fault, { v with journal })
          | (.ok _, a, journal) =>
              (.ready a, saveLedger a { v with auditor := some a, journal })

/-- Answers with the auditor, if it can be set up. -/
def withAuditor (s : Surroundings) (v : Session)
    (answer : Auditor → Session → Except Fault Answer × Session)
    : Except Fault Answer × Session :=
  match ready s v with
  | (.ready a, v) => answer a v
  | (.down message, v) => (.ok (.unavailable s!"audit engine unavailable: {message}"), v)
  | (.broken fault, v) => (.error (.run fault), v)

/-- The expectation that a request states about a domain. -/
def expected (domain : String) (r : Request) : Except ListFault Expected :=
  match Host.domain? domain with
  | none => .error (.badDomain domain)
  | some host => Expected.create host (r.values? "ns") (r.values? "ip")

/-- Audits one domain and answers with its verdict. -/
def auditOne (r : Request) (a : Auditor) (v : Session) : Except Fault Answer × Session :=
  match r.domain with
  | .error flaw => (.ok (.malformed [flaw]), v)
  | .ok domain =>
      match expected domain r with
      | .error fault => (.ok (.senseless fault.message), v)
      | .ok e =>
          match a.auditOne e v.journal with
          | (.error fault, journal) => (.error (.run fault), { v with journal })
          | (.ok verdict, journal) => (.ok (.found (Results.object verdict)), { v with journal })

/-- Audits a domain list and answers with results and summary. -/
def auditEntries (all : Bool) (entries : Json) (a : Auditor) (v : Session)
    : Except Fault Answer × Session :=
  match Expected.ofJson entries with
  | .error fault => (.ok (.senseless fault.message), v)
  | .ok list =>
      match a.pass list v.journal with
      | (.error fault, journal) => (.error (.run fault), { v with journal })
      | (.ok verdicts, journal) =>
          (.ok (.found (.object [
            ("results", Results.toJson all verdicts),
            ("summary", Results.summary verdicts)])), { v with journal })

/-- Audits the domain list in the body, if parameters and body are well-formed. -/
def auditList (r : Request) (content : Option Json) (a : Auditor) (v : Session)
    : Except Fault Answer × Session :=
  match r.wantsAll, Request.contentFlaws content with
  | .ok all, [] => auditEntries all (content.getD .null) a v
  | .ok _, flaws => (.ok (.malformed flaws), v)
  | .error flaw, flaws => (.ok (.malformed (flaw :: flaws)), v)

/-- Answers with the ledger, the preferred server first. -/
def rootServers (a : Auditor) (v : Session) : Except Fault Answer × Session :=
  if a.ledger.listing.all fun m => m.writtenLatency.all Double.isFinite then
    (.ok (.found a.ledger.toJson), v)
  else (.error .untellable, v)

/-- Answers a request. A body that is not JSON is refused before the auditor is needed. -/
def respond (s : Surroundings) (r : Request) (v : Session) : Except Fault Answer × Session :=
  match r.errand with
  | .auditOne => withAuditor s v (auditOne r)
  | .rootServers => withAuditor s v rootServers
  | .auditList =>
      match r.content with
      | .error (.malformed offset) => (.ok (.malformed [.notJson offset]), v)
      | .error .unreadable => (.ok (.senseless "There was an error parsing the body"), v)
      | .ok content => withAuditor s v (auditList r content)
  | .unknownPath => (.ok .unknownPath, v)
  | .wrongVerb => (.ok .wrongVerb, v)

end Session

end NameserverAudit.Service
