import NameserverAudit.Auditor
import NameserverAudit.Proofs.Latency.Pool
import NameserverAudit.Proofs.Latency.Probing
import NameserverAudit.Proofs.Walk.Refusal
import NameserverAudit.Proofs.Zone.Servers

/-! What a probe does. The servers that are due are given to a pool of workers, and measuring them
one after the other is one way for its workers to go about it. Main statement: in whatever order the
workers come on, each server that is due has its attempts, is recorded with what came of them, and
all others are left alone; another probe at the same time has nothing to do.
-/

namespace NameserverAudit

-----------------------------------------------------------------------------------------
-- One after the other
-----------------------------------------------------------------------------------------

namespace Pool

variable {p : ProbePlan} {now : Instant} {s : Server} {l : Ledger}
  {pool pool' last : Pool} {labels more : List Label} {before after : List (Server × Phase)}

/-- The messages of all workers, in the order in which they were sent. -/
def sent (labels : List Label) : List Sent :=
  Action.sent ((acted labels).map (·.2))

theorem acted_append (labels more : List Label)
    : acted (labels ++ more) = acted labels ++ acted more :=
  List.filterMap_append

theorem acted_turn (s : Server) (actions : List Action)
    : acted (actions.map (.did s) ++ [.ended s]) = actions.map (s, ·) := by
  have acts : acted (actions.map (.did s)) = actions.map (s, ·) := by
    rw [acted, List.filterMap_map]
    exact congrFun List.filterMap_eq_map actions
  rw [acted_append, acts]
  exact List.append_nil _

theorem sent_append (labels more : List Label)
    : sent (labels ++ more) = sent labels ++ sent more := by
  simp [sent, acted_append, Action.sent]

/-- When a server has its turn its messages are sent. -/
theorem sent_turn (s : Server) (actions : List Action)
    : sent ([.took s] ++ (actions.map (.did s) ++ [.ended s])) = Action.sent actions := by
  show Action.sent ((acted (actions.map (.did s) ++ [.ended s])).map (·.2)) = _
  rw [acted_turn, List.map_map]
  exact congrArg Action.sent (List.map_id actions)

/-- By induction on the second run. -/
theorem Run.trans (run : Run p now pool labels pool') (run' : Run p now pool' more last)
    : Run p now pool (labels ++ more) last := by
  induction run' with
  | here => rwa [List.append_nil]
  | step _ step ih =>
      rw [← List.append_assoc]
      exact .step ih step

theorem Step.run {label : Label} (step : Step p now pool label pool')
    : Run p now pool [label] pool' :=
  .step (.here pool) step

/-- A worker can take all actions for a server by itself, by induction on these. -/
theorem run_of_reaches {workers : Nat} {actions : List Action}
    {rest rest' : Procedure (Except PayloadFault (Option Double))}
    (reaches : rest.Reaches actions rest')
    : Run p now ⟨workers, before ++ (s, .working rest) :: after, l⟩ (actions.map (.did s))
        ⟨workers, before ++ (s, .working rest') :: after, l⟩ := by
  induction reaches with
  | here => exact .here _
  | step does _ ih =>
      exact (Step.move (.act l does) (fun h => by cases h) (fun h => by cases h)).run.trans ih

/-- What is recorded when the measuring of a server has come to an end. -/
def recorded (now : Instant) (s : Server) (l : Ledger)
    : Except PayloadFault (Option Double) → Ledger
  | .ok latency => l.record ⟨s, latency, now⟩
  | .error _ => l

/-- A server that was taken up can be finished while all others wait for it. -/
theorem run_of_completes (before : List (Server × Phase)) {workers : Nat} {actions : List Action}
    {result : Except PayloadFault (Option Double)}
    (completes : (p.measuring s).Completes actions result)
    : Run p now ⟨workers, before ++ (s, .working (p.measuring s)) :: after, l⟩
        (actions.map (.did s) ++ [.ended s])
        ⟨workers, before ++ (s, .finished result) :: after, recorded now s l result⟩ := by
  have moves : Move p now s (.working (.done result)) l (.ended s) (.finished result)
      (recorded now s l result) := by
    cases result with
    | error fault => exact .fail l fault
    | ok latency => exact .record l latency
  exact .step (run_of_reaches completes) (.move moves (fun h => by cases h) (fun h => by cases h))

/-- One server after the other can have its turn, by induction on the servers: those before are
finished and those after it wait.
-/
theorem run_measureAll {workers : Nat} (hands : 0 < workers) (servers : List Server)
    (ended : ∀ job ∈ before, job.2.isFinished = true) (l : Ledger) (j : Journal)
    : ∃ labels jobs,
        Run p now ⟨workers, before ++ servers.map (·, .waiting), l⟩ labels
          ⟨workers, before ++ jobs, (p.measureAll now servers l j).2.1⟩
        ∧ (∀ job ∈ jobs, job.2.isFinished = true)
        ∧ (p.measureAll now servers l j).2.2.sends = (sent labels).reverse ++ j.sends := by
  induction servers generalizing before l j with
  | nil => exact ⟨[], [], .here _, by simp, rfl⟩
  | cons s rest ih =>
      obtain ⟨actions, completes, sends⟩ := (p.measuring s).run_completes p.network j
      generalize hmeasure : (p.measuring s).run p.network j = measured at completes sends
      obtain ⟨result, k⟩ := measured
      have ended' : ∀ job ∈ before ++ [(s, Phase.finished result)],
          job.2.isFinished = true := by
        intro job member
        rcases List.mem_append.1 member with member | member
        · exact ended job member
        · rw [List.mem_singleton.1 member]
          rfl
      obtain ⟨labels, jobs, run, finished, sends'⟩ := ih ended' (recorded now s l result) k
      have all : (p.measureAll now (s :: rest) l j).2
          = (p.measureAll now rest (recorded now s l result) k).2 := by
        have : p.measure s j = (result, k) := hmeasure
        cases result <;> simp only [ProbePlan.measureAll, this, recorded]
      have idle : (before ++ (s, .waiting) :: rest.map (·, Phase.waiting)).countP
          (·.2.isWorking) = 0 := by
        refine List.countP_eq_zero.2 fun job member works => ?_
        rcases List.mem_append.1 member with member | member
        · have := ended job member
          cases h : job.2 <;> simp_all [Phase.isWorking, Phase.isFinished]
        · obtain ⟨t, -, rfl⟩ := List.mem_map.1 (List.map_cons (f := (·, Phase.waiting)) ▸ member)
          cases works
      have took : Step p now ⟨workers, before ++ (s, .waiting) :: rest.map (·, .waiting), l⟩
          (.took s)
          ⟨workers, before ++ (s, .working (p.measuring s)) :: rest.map (·, .waiting), l⟩ := by
        refine .move (.take l) (fun _ => idle ▸ hands) fun _ job member waits => ?_
        have := ended job member
        rw [waits] at this
        cases this
      have turn := took.run.trans (run_of_completes before completes)
      simp only [List.append_assoc _ [_], List.singleton_append] at run
      refine ⟨[.took s] ++ (actions.map (.did s) ++ [.ended s]) ++ labels,
        (s, .finished result) :: jobs, ?_, ?_, ?_⟩
      case refine_1 =>
        rw [all]
        exact turn.trans run
      case refine_2 => exact List.forall_mem_cons.2 ⟨rfl, finished⟩
      case refine_3 =>
        rw [all, sends', sends, sent_append, sent_turn, List.reverse_append, List.append_assoc]

/-- Two workers can measure two servers so that all actions for the second one come before those
for the first one.
-/
theorem exists_run_backwards (p : ProbePlan) (now : Instant) (s t : Server) (l : Ledger)
    (hands : 2 ≤ p.workers) (j : Journal)
    : ∃ labels pool actions more,
        Run p now (start p [s, t] l) labels pool
        ∧ pool.isFinished = true
        ∧ acted labels = actions.map (t, ·) ++ more.map (s, ·)
        ∧ (∃ result, (p.measuring t).Completes actions result)
        ∧ ∃ result, (p.measuring s).Completes more result := by
  obtain ⟨more, completes, -⟩ := (p.measuring s).run_completes p.network j
  obtain ⟨actions, completes', -⟩ := (p.measuring t).run_completes p.network j
  have start_eq : start p [s, t] l = ⟨2, [] ++ (s, .waiting) :: [(t, .waiting)], l⟩ := by
    simp [start, hands]
  have first : Step p now (start p [s, t] l) (.took s)
      ⟨2, [(s, .working (p.measuring s))] ++ (t, .waiting) :: [], l⟩ := by
    rw [start_eq]
    exact .move (.take l) (fun _ => Nat.zero_lt_two) (by simp)
  have second : Step p now ⟨2, [(s, .working (p.measuring s))] ++ (t, .waiting) :: [], l⟩ (.took t)
      ⟨2, [(s, .working (p.measuring s))] ++ (t, .working (p.measuring t)) :: [], l⟩ :=
    .move (.take l) (fun _ => Nat.one_lt_two) (by simp)
  have late := first.run.trans (second.run.trans (run_of_completes _ completes'))
  refine ⟨_, _, actions, more, late.trans (run_of_completes [] completes), rfl, ?_,
    ⟨_, completes'⟩, ⟨_, completes⟩⟩
  rw [acted_append, acted_turn]
  exact congrArg (· ++ _) (acted_turn t actions)

end Pool

-----------------------------------------------------------------------------------------
-- A probe
-----------------------------------------------------------------------------------------

namespace ProbePlan

variable {p : ProbePlan} {now : Instant} {l : Ledger} {due : List Server} {span : Int}

/-- A run whose payload fits is a run of the pool to its end. -/
theorem run_pool {d : Zone.Directory} {force : Bool} (fits : p.manner.Fits)
    (hands : 0 < p.workers) (hdue : p.due d l now force = .ok due) (j : Journal)
    : ∃ labels pool j',
        Pool.Run p now (.start p due l) labels pool
        ∧ pool.isFinished = true
        ∧ p.run d now force l j = (.ok due.length, pool.ledger, j')
        ∧ j'.sends = (Pool.sent labels).reverse ++ j.sends := by
  cases due with
  | nil => exact ⟨[], _, j, .here _, rfl, by simp only [run, hdue]; rfl, rfl⟩
  | cons first rest =>
      generalize started : j.add (.workers (min p.workers (first :: rest).length)) = k
      have sends : k.sends = j.sends := started ▸ rfl
      have busy : 0 < min p.workers (first :: rest).length :=
        Nat.lt_min.2 ⟨hands, Nat.succ_pos _⟩
      obtain ⟨labels, jobs, run_, finished, sent⟩ :=
        @Pool.run_measureAll p now [] _ busy (first :: rest) (by simp) l k
      have faultless := measureAll_of_fits now fits (first :: rest) l k
      rcases all : p.measureAll now (first :: rest) l k with ⟨fault, l', j'⟩
      rw [all] at faultless run_ sent
      subst faultless
      refine ⟨labels, _, j', run_, List.all_eq_true.2 finished, ?_, sends ▸ sent⟩
      simp only [run, hdue, started, all]

/-- After a finished run of the pool all wanted servers are fresh. -/
theorem fresh_of_probed {servers : List Server} {force : Bool} {labels : List Pool.Label}
    {pool : Pool} (probed : Pool.Probed p now due l labels pool) (nonneg : 0 ≤ span)
    (mem : ∀ s, s ∈ due
      ↔ s ∈ servers ∧ (force = true ∨ ¬l.HasSince s (now.microseconds - span)))
    : ∀ s ∈ servers, pool.ledger.HasSince s (now.microseconds - span) := by
  intro s wanted
  by_cases is_due : s ∈ due
  · obtain ⟨_, latency, -, -, measured, -⟩ := probed.turns s is_due
    exact ⟨_, measured, by dsimp only; omega⟩
  · by_contra old
    rw [Ledger.HasSince, (probed.others s is_due).2] at old
    exact is_due ((mem s).2 ⟨wanted, .inr old⟩)

end ProbePlan

namespace Auditor

/-- The auditor with another ledger. -/
def withLedger (a : Auditor) (l : Ledger) : Auditor :=
  { a with ledger := l }

/-- A probe is a run of its plan. -/
theorem probe_of_run (a : Auditor) {now : Instant} {force : Bool} {j j' : Journal} {n : Nat}
    {l' : Ledger} (h : a.probes.run a.directory now force a.ledger j = (.ok n, l', j'))
    : a.probe now force j = (.ok n, a.withLedger l', j') := by
  simp only [probe, h]
  rfl

/-- A probe of distinct root servers, as every directory has them that was read
(`read_distinct`), with families that exist and are wanted once, and a payload that fits.
Due are all servers of these families if that is forced, or else those that have no measurement
or one beyond the greatest age. They are given to the pool in the order of the directory. However
its workers come on, whatever comes back and whatever the clock says meanwhile, they get to an end
with every server measured; and if the greatest age is at least zero another probe at the same
time measures nothing. A probe that is done step by step is one of these runs.
-/
theorem probe_measures_due (a : Auditor) {now : Instant} {span : Int}
    (distinct : a.directory.Distinct) (known : AreKnown a.probes.families)
    (once : a.probes.families.Nodup) (fits : a.probes.manner.Fits)
    (hands : 0 < a.probes.workers)
    (age : (Seconds.real a.probes.maxAge).toMicroseconds = .ok span)
    (past : ∀ m ∈ a.ledger.measurements, m.time.microseconds ≤ now.microseconds)
    (force : Bool)
    : ∃ servers due : List Server,
        a.directory.servers a.probes.families = .ok servers
        ∧ a.probes.due a.directory a.ledger now force = .ok due
        ∧ due.Sublist servers
        ∧ due.Nodup
        ∧ (∀ s, s ∈ due
            ↔ s ∈ servers
              ∧ (force = true
                ∨ ∀ m, a.ledger.find? s = some m →
                    span < now.microseconds - m.time.microseconds))
        ∧ (∀ labels pool,
            Pool.Run a.probes now (.start a.probes due a.ledger) labels pool
            → Pool.Running a.probes now due labels pool
              ∧ (pool.isFinished = true
                → Pool.Probed a.probes now due a.ledger labels pool
                  ∧ (Double.zero.le a.probes.maxAge = true → ∀ j,
                      (a.withLedger pool.ledger).probe now false j
                        = (.ok 0, a.withLedger pool.ledger, j))))
        ∧ ∀ j, ∃ labels pool j',
            Pool.Run a.probes now (.start a.probes due a.ledger) labels pool
            ∧ pool.isFinished = true
            ∧ a.probe now force j = (.ok due.length, a.withLedger pool.ledger, j')
            ∧ j'.sends = (Pool.sent labels).reverse ++ j.sends := by
  obtain ⟨servers, wanted⟩ : ∃ servers, a.directory.servers a.probes.families = .ok servers :=
    Zone.Directory.serversOf_of_known _ known
  obtain ⟨due, hdue, mem⟩ := ProbePlan.due_eq wanted now age force a.ledger
  have sublist := ProbePlan.due_sublist wanted hdue
  have different := (Zone.Directory.servers_nodup distinct once wanted).sublist sublist
  have old (s : Server)
      : ¬a.ledger.HasSince s (now.microseconds - span)
        ↔ ∀ m, a.ledger.find? s = some m →
            span < now.microseconds - m.time.microseconds := by
    simp only [Ledger.HasSince, not_exists, not_and]
    refine forall₂_congr fun m _ => ?_
    omega
  refine ⟨servers, due, wanted, hdue, sublist, different, fun s => ?_,
    fun labels pool run => ⟨run.running hands different past, fun finished => ?_⟩, fun j => ?_⟩
  · rw [mem, old]
  · have probed := run.probed fits different past finished
    refine ⟨probed, fun nonneg j => (a.withLedger pool.ledger).probe_of_run ?_⟩
    exact (ProbePlan.run_rests_iff wanted age pool.ledger j).2
      (ProbePlan.fresh_of_probed probed (Seconds.toMicroseconds_nonneg nonneg age) mem)
  · obtain ⟨labels, pool, j', run, finished, hrun, sends⟩ :=
      ProbePlan.run_pool fits hands hdue j
    exact ⟨labels, pool, j', run, finished, a.probe_of_run hrun, sends⟩

/-- A zone whose root server has three addresses. -/
def multihomedZone : String :=
  ". NS a.root.\na.root. A 192.0.2.1\na.root. A 192.0.2.2\na.root. AAAA 2001:db8::1\n"

def multihomedDirectory : Zone.Directory :=
  ⟨[⟨"a.root.", (TextSet.empty.insert "192.0.2.1").insert "192.0.2.2",
      TextSet.empty.insert "2001:db8::1"⟩], []⟩

/-- A network that answers every other message, after a quarter of a second. -/
def everyOther : Network := fun earlier _ =>
  if earlier.length % 2 = 0 then ⟨.ofInt 5, .failed .timeout⟩
  else ⟨.ofRatio false 1 4, .response ⟨true, false, .noError, [], [], []⟩⟩

/-- An auditor that knows a fresh measurement of one address, an old one of another, and none of
the third.
-/
def multihomedAuditor : Auditor where
  directory := multihomedDirectory
  ledger := .ofList [⟨⟨"a.root.", "192.0.2.2"⟩, some (.ofInt 20), .ofEpoch 86400000000⟩,
    ⟨⟨"a.root.", "192.0.2.1"⟩, none, .atEpoch⟩]
  probes := ⟨everyOther, .standard, 3, 20, [.known .ipv4, .known .ipv6], .ofInt 86400⟩
  workers := 1
  ledgerOut := none

/-- The addresses that are due one day and an hour after the older measurement. -/
def multihomedDue : List Server :=
  [⟨"a.root.", "192.0.2.1"⟩, ⟨"a.root.", "2001:db8::1"⟩]

theorem multihomedAuditor_due
    : multihomedAuditor.probes.due multihomedDirectory multihomedAuditor.ledger
        (.ofEpoch 90000000000) false
      = .ok multihomedDue := by
  decide +kernel

/-- Witness: two of three addresses are due, and however the workers come on both are measured. -/
theorem multihomedAuditor_measures_due
    : let now : Instant := .ofEpoch 90000000000
      let a := multihomedAuditor
      a.directory.Distinct
      ∧ AreKnown a.probes.families
      ∧ a.probes.families.Nodup
      ∧ a.probes.manner.Fits
      ∧ 0 < a.probes.workers
      ∧ (Seconds.real a.probes.maxAge).toMicroseconds = .ok 86400000000
      ∧ (∀ m ∈ a.ledger.measurements, m.time.microseconds ≤ now.microseconds)
      ∧ (∀ labels pool,
          Pool.Run a.probes now (.start a.probes multihomedDue a.ledger) labels pool
          → pool.isFinished = true
          → Pool.Probed a.probes now multihomedDue a.ledger labels pool
            ∧ ∀ j, (a.withLedger pool.ledger).probe now false j
                = (.ok 0, a.withLedger pool.ledger, j))
      ∧ ∃ labels pool j',
          Pool.Run a.probes now (.start a.probes multihomedDue a.ledger) labels pool
          ∧ a.probe now false .start = (.ok 2, a.withLedger pool.ledger, j') := by
  intro now a
  have read : (Zone.Directory.ofText "hints" multihomedZone).directory
      = .ok multihomedDirectory := by
    decide +kernel
  have known : AreKnown a.probes.families := by
    intro f hf
    simpa [a, multihomedAuditor] using hf
  have once : a.probes.families.Nodup := by decide
  have fits : a.probes.manner.Fits := by decide
  have hands : 0 < a.probes.workers := by decide
  have past : ∀ m ∈ a.ledger.measurements, m.time.microseconds ≤ now.microseconds := by
    decide +kernel
  have age : (Seconds.real a.probes.maxAge).toMicroseconds = .ok 86400000000 := by
    decide +kernel
  have distinct := Zone.Directory.read_distinct read
  obtain ⟨_, due, -, hdue, -, -, -, runs, byItself⟩ :=
    a.probe_measures_due distinct known once fits hands age past false
  obtain rfl := Except.ok.inj (multihomedAuditor_due.symm.trans hdue)
  obtain ⟨labels, pool, j', run, -, probed, -⟩ := byItself .start
  refine ⟨distinct, known, once, fits, hands, age, past, fun labels pool run finished => ?_,
    labels, pool, j', run, probed⟩
  obtain ⟨measured, rests⟩ := (runs labels pool run).2 finished
  exact ⟨measured, rests (by decide +kernel)⟩

/-- The auditor with a payload that no message can carry. -/
def oversizedAuditor : Auditor :=
  let plan := multihomedAuditor.probes
  { multihomedAuditor with probes := { plan with manner := { plan.manner with payload := 70000 } } }

/-- Counterexample: two workers may have the second of two servers answer before the first one is
asked at all, and with a payload that does not fit a probe is broken off.
-/
theorem multihomedAuditor_out_of_order
    : let now : Instant := .ofEpoch 90000000000
      let p := multihomedAuditor.probes
      let first : Server := ⟨"a.root.", "192.0.2.1"⟩
      let second : Server := ⟨"a.root.", "2001:db8::1"⟩
      p.due multihomedDirectory multihomedAuditor.ledger now false = .ok [first, second]
      ∧ (∃ labels pool early late outcomes outcomes',
          Pool.Run p now (.start p [first, second] multihomedAuditor.ledger) labels pool
          ∧ pool.isFinished = true
          ∧ Pool.acted labels = early.map (second, ·) ++ late.map (first, ·)
          ∧ p.Attempts second early outcomes
          ∧ outcomes.length = 3
          ∧ p.Attempts first late outcomes'
          ∧ outcomes'.length = 3)
      ∧ (oversizedAuditor.probe now false .start).1 = .error (.probe (.payload ⟨70000⟩)) := by
  intro now p first second
  have fits : p.manner.Fits := by decide
  obtain ⟨labels, pool, early, late, run, finished, acted, ⟨_, completes⟩, _, completes'⟩ :=
    Pool.exists_run_backwards p now first second multihomedAuditor.ledger (by decide) .start
  obtain ⟨outcomes, -, attempts, length, -⟩ := ProbePlan.measuring_attempts fits completes
  obtain ⟨outcomes', -, attempts', length', -⟩ := ProbePlan.measuring_attempts fits completes'
  exact ⟨multihomedAuditor_due, ⟨labels, pool, early, late, outcomes, outcomes', run, finished,
    acted, attempts, length, attempts', length'⟩, by decide +kernel⟩

end Auditor

end NameserverAudit
