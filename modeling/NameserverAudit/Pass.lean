import NameserverAudit.Exchange.Journal
import NameserverAudit.Verdict.Basic

/-!
Passes over a domain list. Every domain is looked up and judged; one that cannot be resolved is
judged as having published nothing, and the pass goes on. A watch repeats the pass until one
has a failure.
-/

namespace NameserverAudit

inductive LookupFault (ε : Type) where
  /-- No server at some stage was of any use, as the message tells. -/
  | unresolved (message : String)
  | refused (fault : ε)
deriving DecidableEq, Repr

/-- A way to find out what the authoritative servers of a domain publish. -/
abbrev Lookup (ε : Type) := String → Journal → Except (LookupFault ε) Published × Journal

namespace Pass

variable {ε : Type}

def auditOne (lookup : Lookup ε) (e : Expected) (j : Journal) : Except ε Verdict × Journal :=
  match lookup e.domain (j.add (.began e.domain)) with
  | (.ok p, j) => (.ok (.of e p), j)
  | (.error (.unresolved message), j) =>
      (.ok (.of e (.failed message)), j.notice (.unresolved e.domain message))
  | (.error (.refused fault), j) => (.error fault, j)

/-- Audits domains one after the other, as a single worker takes them up. All of them are audited,
and then the first fault counts. -/
def auditAll (lookup : Lookup ε) : List Expected → Journal → Except ε (List Verdict) × Journal
  | [], j => (.ok [], j)
  | e :: rest, j =>
      let (verdict, j) := auditOne lookup e j
      let (more, j) := auditAll lookup rest j
      (match verdict, more with
        | .error fault, _ => .error fault
        | _, .error fault => .error fault
        | .ok v, .ok vs => .ok (v :: vs), j)

/-- One pass over a domain list, by at most the given number of workers. -/
def run (lookup : Lookup ε) (workers : Nat) (list : List Expected) (j : Journal)
    : Except ε (List Verdict) × Journal :=
  match list with
  | [] => (.ok [], j)
  | list => auditAll lookup list (j.add (.workers (min workers list.length)))

def failed (verdicts : List Verdict) : Bool :=
  verdicts.any fun v => !v.success

end Pass

inductive WatchEnd (ε : Type) where
  | ended
  | broken (fault : ε)
  | unfinished
deriving DecidableEq, Repr

namespace Pass

variable {ε : Type}

/-- Repeats a pass, pausing in between, until one has a failure or their greatest number is
reached. `done` passes came before, and at most `fuel` more are made. The passes are given in
order. -/
def watchFrom (lookup : Lookup ε) (workers : Nat) (list : List Expected) (interval : Seconds)
    (maxPasses : Option Int) (done : Nat)
    : Nat → Journal → List (List Verdict) × WatchEnd ε × Journal
  | 0, j => ([], .unfinished, j)
  | fuel + 1, j =>
      match run lookup workers list j with
      | (.error fault, j) => ([], .broken fault, j)
      | (.ok verdicts, j) =>
          let number := done + 1
          if failed verdicts then ([verdicts], .ended, j.notice (.watchStopped number))
          else if (maxPasses.map (decide <| · ≤ (number : Int))).getD false then
            ([verdicts], .ended, j)
          else
            let (more, last, j) :=
              watchFrom lookup workers list interval maxPasses number fuel
                (j.add (.paused interval))
            (verdicts :: more, last, j)

/-- Repeats a pass until one has a failure or their greatest number is reached, up to a number
of passes. -/
def watch (lookup : Lookup ε) (workers : Nat) (list : List Expected) (interval : Seconds)
    (maxPasses : Option Int) (fuel : Nat) (j : Journal)
    : List (List Verdict) × WatchEnd ε × Journal :=
  watchFrom lookup workers list interval maxPasses 0 fuel j

end Pass

end NameserverAudit
