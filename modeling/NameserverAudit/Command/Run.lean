import NameserverAudit.Auditor
import NameserverAudit.Report.Table
import NameserverAudit.Surroundings

/-!
A run of the command. It reads settings, zone, ledger and domain list before it sends or writes
anything; then it probes the root servers and writes the ledger, and audits the list once or
again and again, writing one array of results for each pass. The exit code tells whether the
last pass had a failure.
-/

namespace NameserverAudit.Command

inductive ExitCode where
  /-- All domains of the last pass passed, or there was no list. -/
  | passed
  | stopped
  /-- A domain of the last pass failed, or the command line was wrong. -/
  | failed
deriving DecidableEq, Repr

def ExitCode.number : ExitCode → Nat
  | .passed => 0
  | .stopped => 1
  | .failed => 2

/-- The files, what was printed, and the journal. -/
structure Console where
  disk : Disk
  output : String
  errors : String
  journal : Journal
deriving DecidableEq

namespace Console

def start (disk : Disk) : Console :=
  ⟨disk, "", "", .start⟩

/-- Prints a line to the standard error output. -/
def complain (c : Console) (line : String) : Console :=
  { c with errors := c.errors ++ line ++ "\n" }

end Console

/-- Why a run stops before its audit is done. -/
inductive Stop where
  /-- There is no list, and no place to write the ledger to. -/
  | nothingToDo
  | fault (f : RunFault)
deriving DecidableEq, Repr

/-- The line that tells why a run stops. -/
def Stop.line : Stop → String
  | .nothingToDo => "Nothing to audit: pass a domain list with -c"
  | .fault f => s!"error: {f.message}"

/-- How a run of the command line came to its end. -/
inductive Ending where
  | help
  | misused (fault : ArgumentFault)
  | done (code : ExitCode)
  | stopped (why : Stop)
  /-- A fault that is not foreseen broke the run off. -/
  | broken (fault : RunFault)
  | unfinished
deriving DecidableEq, Repr

/-- The line that tells what is wrong with a command line. -/
def usageLine (fault : ArgumentFault) : String :=
  s!"dns-audit: error: {fault.message}"

structure Task where
  auditor : Auditor
  list : List Expected

def prepare (s : Surroundings) (input : List UInt8) (a : Arguments) (disk : Disk) (j : Journal)
    : Except RunFault Task × Journal :=
  match Settings.ofArguments s.environment a with
  | .error fault => (.error (.settings fault), j)
  | .ok settings =>
      match Auditor.setUp settings s.network disk j with
      | (.error fault, j) => (.error fault, j)
      | (.ok auditor, j) =>
          match givenPath? a.list with
          | none => (.ok ⟨auditor, []⟩, j)
          | some path =>
              match DomainList.read disk input path with
              | .error fault => (.error (.list fault), j)
              | .ok list => (.ok ⟨auditor, list⟩, j)

/-- Probes the root servers unless that is ruled out. -/
def probe (s : Surroundings) (a : Arguments) (auditor : Auditor) (c : Console)
    : Except RunFault Auditor × Console :=
  if a.noProbe then (.ok auditor, c)
  else
    let c := c.complain "Testing root nameservers..."
    match auditor.probe s.now false c.journal with
    | (.error fault, _, journal) => (.error fault, { c with journal })
    | (.ok _, auditor, journal) => (.ok auditor, { c with journal })

/-- Writes the ledger if the command line says where. -/
def saveLedger (a : Arguments) (auditor : Auditor) (c : Console)
    : Except RunFault Unit × Console :=
  match givenPath? a.ledgerOut with
  | none => (.ok (), c)
  | some path =>
      match auditor.save (some path) c.disk with
      | .error fault => (.error fault, c)
      | .ok disk => (.ok (), { c with disk })

/-- Writes the results of passes, and their summaries if these are asked for. -/
def report (a : Arguments) (passes : List (List Verdict)) (c : Console) : Console :=
  let text := String.join (passes.map (Results.text a.all))
  let summary := if a.summary then String.join (passes.map Table.passSummary) else ""
  let c := { c with errors := c.errors ++ summary }
  if a.output = "-" then { c with output := c.output ++ text }
  else { c with disk := c.disk.store a.output (Text.Utf8.encode text.toList) }

def codeOf (last : List Verdict) : ExitCode :=
  if Pass.failed last then .failed else .passed

/-- Audits a list once, or as a watch of at most so many passes. -/
def audit (a : Arguments) (auditor : Auditor) (list : List Expected) (fuel : Nat) (c : Console)
    : Ending × Console :=
  match a.watch with
  | none =>
      match auditor.pass list c.journal with
      | (.error fault, journal) => (.broken fault, report a [] { c with journal })
      | (.ok verdicts, journal) =>
          (.done (codeOf verdicts), report a [verdicts] { c with journal })
  | some interval =>
      let (passes, last, journal) := auditor.watch list (.real interval) fuel c.journal
      let c := report a passes { c with journal }
      match last with
      | .broken refusal => (.broken (.walk refusal), c)
      | .unfinished => (.unfinished, c)
      | .ended => (.done (codeOf (passes.getLastD [])), c)

/-- Stops a run, and tells why in a line. -/
def stop (why : Stop) (c : Console) : Ending × Console :=
  (.stopped why, c.complain why.line)

/-- The end of a run with a fault: a foreseen one stops it. -/
def endWith (fault : RunFault) (c : Console) : Ending × Console :=
  if fault.isForeseen then stop (.fault fault) c else (.broken fault, c)

def perform (s : Surroundings) (a : Arguments) (task : Task) (fuel : Nat) (c : Console)
    : Ending × Console :=
  match probe s a task.auditor c with
  | (.error fault, c) => endWith fault c
  | (.ok auditor, c) =>
      match saveLedger a auditor c with
      | (.error fault, c) => endWith fault c
      | (.ok (), c) =>
          if task.list.isEmpty then (.done .passed, c)
          else if a.output = "-" then audit a auditor task.list fuel c
          else
            match c.disk.checkWrite a.output with
            | .error fault => endWith (.file fault) c
            | .ok () => audit a auditor task.list fuel c

def runArguments (s : Surroundings) (input : List UInt8) (a : Arguments) (fuel : Nat)
    (disk : Disk) : Ending × Console :=
  let c := Console.start disk
  match prepare s input a disk c.journal with
  | (.error fault, journal) => endWith fault { c with journal }
  | (.ok task, journal) =>
      let c := { c with journal }
      if task.list.isEmpty && (givenPath? a.ledgerOut).isNone then stop .nothingToDo c
      else perform s a task fuel c

/-- Runs a command line. A watch makes at most `fuel` passes. -/
def run (s : Surroundings) (input : List UInt8) (arguments : List String) (fuel : Nat)
    (disk : Disk) : Ending × Console :=
  match Arguments.ofList arguments with
  | .error .help => (.help, .start disk)
  | .error (.fault fault) => (.misused fault, .start disk)
  | .ok a => runArguments s input a fuel disk

end NameserverAudit.Command
