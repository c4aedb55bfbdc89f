import NameserverAudit.Exchange.Query
import NameserverAudit.Zone.Directory
import NameserverAudit.Latency.Preference

/-!
Probing the root servers. Every root server of the wanted families without a fresh measurement
is asked a few times for the nameservers of the root; the mean of the times that the answers
took is recorded, or that there was no answer at all. Here the servers have their turns one after
the other; `Pool` says what may happen when there are several workers.
-/

namespace NameserverAudit

def atLeastOne (n : Int) : Nat :=
  (max 1 n).toNat

structure ProbePlan where
  network : Network
  manner : Manner
  attempts : Nat
  workers : Nat
  families : List FamilyName
  maxAge : Double

inductive ProbeFault where
  | unknownFamily (family : UnknownFamily)
  | age (fault : AgeFault)
  | payload (fault : PayloadFault)
deriving DecidableEq, Repr

namespace ProbePlan

def question : Question := ⟨".", .root⟩

/-- The milliseconds that the answers to a number of queries took. -/
def sampling (p : ProbePlan) (server : Server)
    : Nat → Procedure (Except PayloadFault (List Double))
  | 0 => return .ok []
  | attempts + 1 => do
      match ← p.manner.timedPosing server.address question .ns with
      | .error fault => return .error fault
      | .ok (.error _) => p.sampling server attempts
      | .ok (.ok (_, ms)) => return (← p.sampling server attempts).map (ms :: ·)

def mean (xs : List Double) : Double :=
  (xs.foldl Double.add .zero).divNat xs.length

/-- The latency of a server: the mean over its answers, or nothing if it gave none. -/
def measuring (p : ProbePlan) (server : Server)
    : Procedure (Except PayloadFault (Option Double)) := do
  let samples ← p.sampling server p.attempts
  return samples.map fun xs => if xs.isEmpty then none else some (mean xs)

/-- Measures the latency of a server that is asked by itself. -/
def measure (p : ProbePlan) (server : Server) (j : Journal)
    : Except PayloadFault (Option Double) × Journal :=
  (p.measuring server).run p.network j

/-- The servers that have no fresh measurement. -/
def stale (p : ProbePlan) (ledger : Ledger) (now : Instant)
    : List Server → Except AgeFault (List Server)
  | [] => .ok []
  | server :: rest =>
      match ledger.isFresh server (.real p.maxAge) (.utc now) with
      | .error fault => .error fault
      | .ok fresh =>
          match p.stale ledger now rest with
          | .error fault => .error fault
          | .ok more => .ok (if fresh then more else server :: more)

/-- The servers to measure: all root servers of the wanted families if that is forced, or else
those that have no fresh measurement. -/
def due (p : ProbePlan) (directory : Zone.Directory) (ledger : Ledger) (now : Instant)
    (force : Bool) : Except ProbeFault (List Server) :=
  match directory.servers p.families with
  | .error family => .error (.unknownFamily family)
  | .ok servers =>
      if force then .ok servers
      else
        match p.stale ledger now servers with
        | .error fault => .error (.age fault)
        | .ok xs => .ok xs

/-- Measures servers one after the other, and gives the first fault. A server that cannot be
asked has nothing recorded, and the others have their turns all the same. -/
def measureAll (p : ProbePlan) (now : Instant)
    : List Server → Ledger → Journal → Option PayloadFault × Ledger × Journal
  | [], ledger, j => (none, ledger, j)
  | server :: rest, ledger, j =>
      match p.measure server j with
      | (.error fault, j) => (some fault, (p.measureAll now rest ledger j).2)
      | (.ok latency, j) => p.measureAll now rest (ledger.record ⟨server, latency, now⟩) j

/-- Probes the root servers of a directory, and tells how many were measured. -/
def run (p : ProbePlan) (directory : Zone.Directory) (now : Instant) (force : Bool)
    (ledger : Ledger) (j : Journal) : Except ProbeFault Nat × Ledger × Journal :=
  match p.due directory ledger now force with
  | .error fault => (.error fault, ledger, j)
  | .ok [] => (.ok 0, ledger, j)
  | .ok servers =>
      let j := j.add (.workers (min p.workers servers.length))
      match p.measureAll now servers ledger j with
      | (some fault, after) => (.error (.payload fault), after)
      | (none, after) => (.ok servers.length, after)

end ProbePlan

end NameserverAudit
