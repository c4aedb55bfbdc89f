/-!
Notices about the course of a run: things that went wrong and did not end it.
-/

namespace NameserverAudit

inductive Gravity where
  | warning
  | error
deriving DecidableEq, Repr

def Gravity.name : Gravity → String
  | .warning => "WARNING"
  | .error => "ERROR"

inductive Level where
  | warnings
  | information
  | everything
deriving DecidableEq, Repr

def Level.name : Level → String
  | .warnings => "WARNING"
  | .information => "INFO"
  | .everything => "DEBUG"

/-- The level that a count of requests for more asks for. -/
def Level.ofCount (n : Int) : Level :=
  if n ≤ 0 then .warnings else if n = 1 then .information else .everything

inductive Notice where
  /-- A nameserver of the root was left out of the directory. -/
  | rootLeftOut (source name : String)
  /-- The authoritative servers of a domain were not reached. -/
  | unresolved (domain message : String)
  /-- The pass with this number had failures, which ends the watch. -/
  | watchStopped (pass : Nat)
  | serviceDown (message : String)
  | ledgerNotWritten (message : String)
deriving DecidableEq, Repr

def Notice.gravity : Notice → Gravity
  | .serviceDown _ => .error
  | _ => .warning

def Notice.message : Notice → String
  | .rootLeftOut source name => s!"{source}: root server {name} has no address records, skipping"
  | .unresolved domain message => s!"{domain}: {message}"
  | .watchStopped pass => s!"pass {pass} had failures, stopping watch"
  | .serviceDown message => s!"cannot start audit engine: {message}"
  | .ledgerNotWritten message => s!"could not write performance cache: {message}"

end NameserverAudit
