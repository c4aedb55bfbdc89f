import NameserverAudit.Latency.Probe

/-!
The pool of workers that measures the servers which are due. Servers wait in a line, a free worker
takes up the first one, and when its measuring has come to an end the result is recorded. What
the workers do in the meantime may be interleaved in any way, and the network and the clock may
answer anything.
-/

namespace NameserverAudit

/-- How far the measuring of a server has come. -/
inductive Phase where
  | waiting
  | working (rest : Procedure (Except PayloadFault (Option Double)))
  | finished (result : Except PayloadFault (Option Double))

namespace Phase

def isWorking : Phase → Bool
  | .working _ => true
  | _ => false

def isFinished : Phase → Bool
  | .finished _ => true
  | _ => false

def fault? : Phase → Option PayloadFault
  | .finished (.error fault) => some fault
  | _ => none

end Phase

/-- The servers in the order in which they were given to the pool, each with how far it has come,
and the ledger that all workers record in. -/
structure Pool where
  workers : Nat
  jobs : List (Server × Phase)
  ledger : Ledger

namespace Pool

/-- What is seen of the workers: that one takes up a server, acts for it, or is done with it. -/
inductive Label where
  | took (server : Server)
  | did (server : Server) (action : Action)
  | ended (server : Server)

/-- No more workers than servers are started. -/
def start (p : ProbePlan) (servers : List Server) (ledger : Ledger) : Pool :=
  ⟨min p.workers servers.length, servers.map (·, .waiting), ledger⟩

def isFinished (pool : Pool) : Bool :=
  pool.jobs.all (·.2.isFinished)

/-- What the pool gives in the end: a fault if there is any, or how many servers were measured. -/
def result (pool : Pool) : Except PayloadFault Nat :=
  match pool.jobs.findSome? (·.2.fault?) with
  | some fault => .error fault
  | none => .ok pool.jobs.length

variable (p : ProbePlan) (now : Instant)

/-- How a server comes on when it is measured as a plan says, and what is recorded then. -/
inductive Move (s : Server) : Phase → Ledger → Label → Phase → Ledger → Prop
  | take (l : Ledger) : Move s .waiting l (.took s) (.working (p.measuring s)) l
  | act {rest rest' : Procedure (Except PayloadFault (Option Double))} {action : Action}
    (l : Ledger) (does : rest.Does action rest')
    : Move s (.working rest) l (.did s action) (.working rest') l
  | record (l : Ledger) (latency : Option Double)
    : Move s (.working (.done (.ok latency))) l (.ended s) (.finished (.ok latency))
        (l.record ⟨s, latency, now⟩)
  | fail (l : Ledger) (fault : PayloadFault)
    : Move s (.working (.done (.error fault))) l (.ended s) (.finished (.error fault)) l

/-- One server comes on. A server that waits is taken up when it is the first in the line and a
worker is free. -/
inductive Step : Pool → Label → Pool → Prop
  | move {workers : Nat} {before after : List (Server × Phase)} {s : Server}
    {phase phase' : Phase} {l l' : Ledger} {label : Label}
    (moves : Move p now s phase l label phase' l')
    (free : phase = .waiting →
      (before ++ (s, phase) :: after).countP (·.2.isWorking) < workers)
    (first : phase = .waiting → ∀ job ∈ before, job.2 ≠ .waiting)
    : Step ⟨workers, before ++ (s, phase) :: after, l⟩ label
        ⟨workers, before ++ (s, phase') :: after, l'⟩

/-- Steps one after the other. -/
inductive Run : Pool → List Label → Pool → Prop
  | here (pool : Pool) : Run pool [] pool
  | step {pool pool' last : Pool} {labels : List Label} {label : Label}
    (before : Run pool labels pool') (step : Step p now pool' label last)
    : Run pool (labels ++ [label]) last

end Pool

end NameserverAudit
