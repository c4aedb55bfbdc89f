import NameserverAudit.Latency.Archive
import NameserverAudit.Latency.Probe
import NameserverAudit.Pass
import NameserverAudit.Settings
import NameserverAudit.Verdict.DomainList
import NameserverAudit.Walk.Collection

/-!
An auditor: the directory of the root, the ledger of latencies and the ways to probe and to
walk, as the settings say. It is set up from files, probes the root servers, writes its ledger
and audits domains.
-/

namespace NameserverAudit

inductive RunFault where
  | settings (fault : SettingsFault)
  | noRootZone
  | zone (fault : Zone.Fault)
  | ledger (fault : ArchiveFault)
  | list (fault : DomainListFault)
  | file (fault : FileFault)
  | probe (fault : ProbeFault)
  | walk (refusal : Refusal)
deriving DecidableEq, Repr

def ProbeFault.message : ProbeFault → String
  | .unknownFamily family => family.message
  | .age fault => fault.message
  | .payload fault => fault.message

def Refusal.message : Refusal → String
  | .badName fault => fault.message
  | .unknownFamily family => family.message
  | .payload fault => fault.message
  | .foreign record => record.message

namespace RunFault

def message : RunFault → String
  | .settings fault => fault.message
  | .noRootZone => "a root zone file is required"
  | .zone fault => fault.message
  | .ledger fault => fault.message
  | .list fault => fault.message
  | .file fault => fault.message
  | .probe fault => fault.message
  | .walk refusal => refusal.message

/-- The fault is one that a run foresees and reports; any other breaks it off. -/
def isForeseen : RunFault → Bool
  | .settings _ | .noRootZone | .file _ => true
  | .zone (.text _ fault) => fault.isRefusal
  | .zone _ => true
  | .ledger (.integerTooLong _) => false
  | .ledger (.entry .latencyTooLarge) | .ledger (.entry .timeOutOfRange) => false
  | .ledger _ => true
  | .list (.integerTooLong _) => false
  | .list _ => true
  | .probe _ | .walk _ => false

end RunFault

/-- The lookup that walks down from the root and collects nameservers and addresses. -/
def Walker.lookup (w : Walker) : Lookup Refusal := fun domain j =>
  match w.resolve true true domain j with
  | (.ok p, j) => (.ok p, j)
  | (.error (.unresolved u), j) => (.error (.unresolved u.message), j)
  | (.error (.refused r), j) => (.error (.refused r), j)

structure Auditor where
  directory : Zone.Directory
  ledger : Ledger
  probes : ProbePlan
  /-- The greatest number of domains that are audited at a time. -/
  workers : Nat
  /-- Where the ledger is written unless another path is given. -/
  ledgerOut : Option String

def givenPath? (path : Option String) : Option String :=
  path.filter fun p => !p.isEmpty

namespace Auditor

/-- Reads the directory of the root, and notices the nameservers that are left out of it. -/
def readDirectory (disk : Disk) (path : String) (j : Journal)
    : Except RunFault Zone.Directory × Journal :=
  let reading := Zone.Directory.load disk path
  let j := reading.leftOut.foldl (fun j name => j.notice (.rootLeftOut path name)) j
  match reading.directory with
  | .error fault => (.error (.zone fault), j)
  | .ok d => (.ok d, j)

/-- Reads the ledger, which is empty if no path is given or no file is there. -/
def readLedger (disk : Disk) (path : Option String) : Except RunFault Ledger :=
  match givenPath? path with
  | none => .ok .empty
  | some path =>
      match Ledger.load disk path true with
      | .error fault => .error (.ledger fault)
      | .ok l => .ok l

/-- The way in which settings have the root servers probed. -/
def planOf (s : Settings) (network : Network) : ProbePlan where
  network := network
  manner := { Manner.standard with timeout := s.timeout, payload := s.payload }
  attempts := atLeastOne s.attempts
  workers := atLeastOne s.probeWorkers
  families := s.families
  maxAge := s.maxAge

def setUp (s : Settings) (network : Network) (disk : Disk) (j : Journal)
    : Except RunFault Auditor × Journal :=
  match givenPath? s.rootZone with
  | none => (.error .noRootZone, j)
  | some path =>
      match readDirectory disk path j with
      | (.error fault, j) => (.error fault, j)
      | (.ok directory, j) =>
          match readLedger disk s.ledgerIn with
          | .error fault => (.error fault, j)
          | .ok ledger =>
              (.ok
                { directory, ledger
                  probes := planOf s network
                  workers := atLeastOne s.workers
                  ledgerOut := s.ledgerOut }, j)

/-- Probes the root servers, and tells how many were measured. -/
def probe (a : Auditor) (now : Instant) (force : Bool) (j : Journal)
    : Except RunFault Nat × Auditor × Journal :=
  match a.probes.run a.directory now force a.ledger j with
  | (.error fault, ledger, j) => (.error (.probe fault), { a with ledger }, j)
  | (.ok count, ledger, j) => (.ok count, { a with ledger }, j)

/-- Writes the ledger to a path, or else where the settings say, or else nowhere. -/
def save (a : Auditor) (path : Option String) (disk : Disk) : Except RunFault Disk :=
  match (givenPath? path).or (givenPath? a.ledgerOut) with
  | none => .ok disk
  | some path =>
      match a.ledger.save disk path with
      | .error fault => .error (.file fault)
      | .ok disk => .ok disk

/-- The walker of an auditor: it starts at the delegations that the directory knows, takes at
most 16 steps and nests at most 2 walks. -/
def walker (a : Auditor) : Walker where
  directory := a.directory
  ledger := a.ledger
  network := a.probes.network
  manner := a.probes.manner
  families := a.probes.families
  useDelegations := true
  maxSteps := 16
  maxDepth := 2

def auditOne (a : Auditor) (e : Expected) (j : Journal) : Except RunFault Verdict × Journal :=
  match Pass.auditOne a.walker.lookup e j with
  | (.error r, j) => (.error (.walk r), j)
  | (.ok v, j) => (.ok v, j)

def pass (a : Auditor) (list : List Expected) (j : Journal)
    : Except RunFault (List Verdict) × Journal :=
  match Pass.run a.walker.lookup a.workers list j with
  | (.error r, j) => (.error (.walk r), j)
  | (.ok vs, j) => (.ok vs, j)

/-- Repeats the pass over a domain list until it has a failure, at most so many times. -/
def watch (a : Auditor) (list : List Expected) (interval : Seconds) (fuel : Nat) (j : Journal)
    : List (List Verdict) × WatchEnd Refusal × Journal :=
  Pass.watch a.walker.lookup a.workers list interval none fuel j

end Auditor

end NameserverAudit
