import NameserverAudit.Proofs.Latency.Lookup
import NameserverAudit.Proofs.Latency.Turns

/-! What a pool of workers does, in whatever order the workers come on. One server comes on at a
step, and its measuring sees nothing of the others. Main statements: a run of the pool has a bounded
number of steps and can go on until it is finished; and then every server had its attempts and is
recorded with what came of them, although those of several servers may be interleaved.
-/

namespace NameserverAudit

/-- The last measurement recorded is there, if it is no older than all others. -/
theorem Ledger.find?_record_of_past {l : Ledger} {m : Measurement}
    (past : ∀ n ∈ l.measurements, n.time.microseconds ≤ m.time.microseconds)
    : (l.record m).find? m.server = some m := by
  rw [find?_record]
  cases hold : l.find? m.server with
  | none => rfl
  | some old =>
      have := past old (find?_eq_some_iff.1 hold).1
      have : ¬m.time.microseconds < old.time.microseconds := by omega
      simp only [newer, this, if_false]

namespace Pool

variable {p : ProbePlan} {now : Instant} {s t : Server} {phase phase' : Phase} {l l' : Ledger}
  {label : Label} {labels : List Label} {pool pool' : Pool} {due : List Server}

-----------------------------------------------------------------------------------------
-- What is seen
-----------------------------------------------------------------------------------------

def Label.acted? : Label → Option (Server × Action)
  | .did s action => some (s, action)
  | _ => none

def Label.action? (s : Server) : Label → Option Action
  | .did t action => if t = s then some action else none
  | _ => none

def Label.taken? : Label → Option Server
  | .took s => some s
  | _ => none

/-- The actions of all workers, each with the server that it was for. -/
def acted (labels : List Label) : List (Server × Action) :=
  labels.filterMap Label.acted?

/-- The actions for one server. -/
def actionsOf (labels : List Label) (s : Server) : List Action :=
  labels.filterMap (Label.action? s)

/-- The servers in the order in which they were taken up. -/
def taken (labels : List Label) : List Server :=
  labels.filterMap Label.taken?

theorem actionsOf_concat (labels : List Label) (label : Label) (s : Server)
    : actionsOf (labels ++ [label]) s = actionsOf labels s ++ (label.action? s).toList := by
  rw [actionsOf, List.filterMap_append]
  cases h : label.action? s <;> simp [actionsOf, h]

theorem acted_concat (labels : List Label) (label : Label)
    : acted (labels ++ [label]) = acted labels ++ label.acted?.toList := by
  rw [acted, List.filterMap_append]
  cases h : label.acted? <;> simp [acted, h]

theorem taken_concat (labels : List Label) (label : Label)
    : taken (labels ++ [label]) = taken labels ++ label.taken?.toList := by
  rw [taken, List.filterMap_append]
  cases h : label.taken? <;> simp [taken, h]

theorem Move.action?_of_ne (moves : Move p now s phase l label phase' l') (other : t ≠ s)
    : label.action? t = none := by
  cases moves with
  | act => exact if_neg (Ne.symm other)
  | take | record | fail => rfl

theorem Move.find?_of_ne (moves : Move p now s phase l label phase' l') (other : t ≠ s)
    : l'.find? t = l.find? t := by
  cases moves with
  | record => exact Ledger.find?_record_of_ne other
  | take | act | fail => rfl

-----------------------------------------------------------------------------------------
-- One server
-----------------------------------------------------------------------------------------

/-- The actions brought the measuring of a server into a phase. -/
inductive Follows (p : ProbePlan) (s : Server) : List Action → Phase → Prop
  | waiting : Follows p s [] .waiting
  | working {actions : List Action} {rest : Procedure (Except PayloadFault (Option Double))}
    (reaches : (p.measuring s).Reaches actions rest)
    : Follows p s actions (.working rest)
  | finished {actions : List Action} {result : Except PayloadFault (Option Double)}
    (completes : (p.measuring s).Completes actions result)
    : Follows p s actions (.finished result)

/-- No action was taken for a server that waits. -/
theorem Follows.nothing {actions : List Action} (follows : Follows p s actions .waiting)
    : actions = [] := by
  cases follows
  rfl

theorem Follows.finished_completes {actions : List Action} (follows : Follows p s actions phase)
    (finished : phase.isFinished = true)
    : ∃ result, phase = .finished result ∧ (p.measuring s).Completes actions result := by
  cases follows with
  | waiting | working => cases finished
  | finished completes => exact ⟨_, rfl, completes⟩

/-- Only the server is asked for the nameservers of the root. -/
theorem Follows.asks {actions : List Action} (follows : Follows p s actions phase)
    : ∀ m ∈ Action.sent actions, m.AsksFor s.address .root .ns := by
  cases follows with
  | waiting => simp [Action.sent]
  | working reaches => exact reaches.sent (p.measuring_sends s)
  | finished completes => exact completes.sent (p.measuring_sends s)

theorem Move.follows {actions : List Action} (moves : Move p now s phase l label phase' l')
    (follows : Follows p s actions phase)
    : Follows p s (actions ++ (label.action? s).toList) phase' := by
  cases moves with
  | take =>
      cases follows
      exact .working (.here _)
  | act l does =>
      cases follows with
      | working reaches =>
          simp only [Label.action?, if_true, Option.toList_some]
          exact .working (reaches.snoc does)
  | record | fail =>
      cases follows with
      | working reaches =>
          simp only [Label.action?, Option.toList_none, List.append_nil]
          exact .finished reaches

/-- In a phase a server takes at most so many steps. -/
inductive StepsLeft (p : ProbePlan) : Phase → Nat → Prop
  | waiting : StepsLeft p .waiting (5 * p.attempts + 2)
  | working {rest : Procedure (Except PayloadFault (Option Double))} {n : Nat}
    (ends : rest.EndsWithin n)
    : StepsLeft p (.working rest) (n + 1)
  | finished (result : Except PayloadFault (Option Double)) (n : Nat)
    : StepsLeft p (.finished result) n

theorem Move.stepsLeft {n : Nat} (moves : Move p now s phase l label phase' l')
    (left : StepsLeft p phase n)
    : ∃ k, n = k + 1 ∧ StepsLeft p phase' k := by
  cases moves with
  | take =>
      cases left
      exact ⟨_, rfl, .working (p.measuring_endsWithin s)⟩
  | act l does =>
      cases left with
      | working ends =>
          obtain ⟨k, rfl, ends'⟩ := ends.does does
          exact ⟨_, rfl, .working ends'⟩
  | record | fail =>
      cases left
      exact ⟨_, rfl, .finished _ _⟩

/-- A server that comes on was not finished. -/
theorem Move.not_finished (moves : Move p now s phase l label phase' l')
    : phase.isFinished = false := by
  cases moves <;> rfl

-----------------------------------------------------------------------------------------
-- All servers
-----------------------------------------------------------------------------------------

section Replaced

variable {before after : List (Server × Phase)} {job : Server × Phase}

theorem servers_replaced
    : (before ++ (s, phase') :: after).map (·.1) = (before ++ (s, phase) :: after).map (·.1) := by
  simp

/-- Of different servers one is in another phase, and all others are as they were. -/
theorem mem_replaced (phase' : Phase)
    (distinct : ((before ++ (s, phase) :: after).map (·.1)).Nodup)
    : job ∈ before ++ (s, phase') :: after
      ↔ job = (s, phase') ∨ job ∈ before ++ (s, phase) :: after ∧ job.1 ≠ s := by
  rw [List.map_append, List.map_cons, List.nodup_middle, List.nodup_cons, ← List.map_append]
    at distinct
  have elsewhere (member : job ∈ before ++ after) : job.1 ≠ s := fun same =>
    distinct.1 (List.mem_map.2 ⟨job, member, same⟩)
  simp only [List.mem_append, List.mem_cons] at elsewhere ⊢
  constructor
  · rintro (member | rfl | member)
    · exact .inr ⟨.inl member, elsewhere (.inl member)⟩
    · exact .inl rfl
    · exact .inr ⟨.inr (.inr member), elsewhere (.inr member)⟩
  · rintro (rfl | ⟨member | rfl | member, other⟩)
    · exact .inr (.inl rfl)
    · exact .inl member
    · exact absurd rfl other
    · exact .inr (.inr member)

/-- Of different servers each one is in one phase. -/
theorem phase_unique (distinct : ((before ++ (s, phase) :: after).map (·.1)).Nodup)
    (member : (s, phase') ∈ before ++ (s, phase) :: after)
    : phase' = phase := by
  rcases (mem_replaced phase distinct).1 member with same | ⟨-, other⟩
  · exact congrArg Prod.snd same
  · exact absurd rfl other

end Replaced

/-- What the steps of a pool have led to: every server is in the phase that its own actions brought
it into, and exactly what was measured is recorded.
-/
structure Reached (p : ProbePlan) (now : Instant) (due : List Server) (old : Ledger)
    (labels : List Label) (pool : Pool)
    : Prop where
  servers : pool.jobs.map (·.1) = due
  follows : ∀ job ∈ pool.jobs, Follows p job.1 (actionsOf labels job.1) job.2
  strangers : ∀ t, t ∉ due → actionsOf labels t = []
  recorded
    : ∀ t latency,
        (t, .finished (.ok latency)) ∈ pool.jobs
        → pool.ledger.find? t = some ⟨t, latency, now⟩
  kept
    : ∀ t,
        (∀ latency, (t, .finished (.ok latency)) ∉ pool.jobs)
        → pool.ledger.find? t = old.find? t
  past : ∀ m ∈ pool.ledger.measurements, m.time.microseconds ≤ now.microseconds

theorem reached_start (p : ProbePlan) (old : Ledger)
    (past : ∀ m ∈ old.measurements, m.time.microseconds ≤ now.microseconds)
    : Reached p now due old [] (start p due old) := by
  have waiting (job : Server × Phase) (member : job ∈ (start p due old).jobs)
      : job.2 = .waiting := by
    obtain ⟨t, -, rfl⟩ := List.mem_map.1 member
    rfl
  constructor
  case servers => simp [start, Function.comp_def]
  case follows =>
    rintro ⟨t, phase⟩ member
    obtain rfl : phase = .waiting := waiting _ member
    exact .waiting
  case strangers => exact fun t _ => rfl
  case recorded =>
    intro t latency member
    cases waiting _ member
  case kept => exact fun t _ => rfl
  case past => exact past

/-- A step changes the phase of one server and what is recorded of it. -/
theorem Reached.step {old : Ledger} (distinct : due.Nodup)
    (reached : Reached p now due old labels pool) (step : Step p now pool label pool')
    : Reached p now due old (labels ++ [label]) pool' := by
  obtain ⟨moves, -, -⟩ := step
  next workers before after s phase phase' l l' =>
  obtain ⟨servers, follows, strangers, recorded, kept, past⟩ := reached
  have different : ((before ++ (s, phase) :: after).map (·.1)).Nodup := servers ▸ distinct
  have here : (s, phase) ∈ before ++ (s, phase) :: after :=
    List.mem_append_right _ (List.mem_cons_self ..)
  have mem (job : Server × Phase)
      : job ∈ before ++ (s, phase') :: after
        ↔ job = (s, phase') ∨ job ∈ before ++ (s, phase) :: after ∧ job.1 ≠ s :=
    mem_replaced phase' different
  constructor
  case servers => exact servers_replaced.trans servers
  case follows =>
    intro job member
    rw [actionsOf_concat]
    rcases (mem job).1 member with rfl | ⟨member, other⟩
    · exact moves.follows (follows _ here)
    · rw [moves.action?_of_ne other, Option.toList_none, List.append_nil]
      exact follows job member
  case strangers =>
    intro t stranger
    have other : t ≠ s := by
      rintro rfl
      exact stranger (servers ▸ List.mem_map_of_mem here)
    rw [actionsOf_concat, moves.action?_of_ne other, strangers t stranger]
    rfl
  case recorded =>
    intro t latency member
    rcases (mem _).1 member with same | ⟨member, other⟩
    · obtain ⟨rfl, rfl⟩ := Prod.ext_iff.1 same
      cases moves
      exact Ledger.find?_record_of_past past
    · exact (moves.find?_of_ne other).trans (recorded t latency member)
  case kept =>
    intro t unmeasured
    by_cases same : t = s
    · subst same
      have untouched : l' = l := by
        cases moves with
        | record l latency => exact absurd ((mem _).2 (.inl rfl)) (unmeasured latency)
        | take | act | fail => rfl
      rw [untouched]
      refine kept t fun latency member => ?_
      have unfinished := moves.not_finished
      rw [← phase_unique different member] at unfinished
      cases unfinished
    · rw [moves.find?_of_ne same]
      exact kept t fun latency member => unmeasured latency ((mem _).2 (.inr ⟨member, same⟩))
  case past =>
    intro m member
    cases moves with
    | record =>
        rcases Ledger.mem_record member with member | rfl
        · exact past m member
        · exact Int.le_refl _
    | take | act | fail => exact past m member

-----------------------------------------------------------------------------------------
-- The line
-----------------------------------------------------------------------------------------

/-- The server was taken up. -/
def begun : Phase → Bool
  | .waiting => false
  | _ => true

def marks (pool : Pool) : List (Server × Bool) :=
  pool.jobs.map fun job => (job.1, begun job.2)

/-- The servers that were taken up stand before those that wait, in the order of the line, and no
more workers are busy than there are.
-/
structure InLine (labels : List Label) (pool : Pool) : Prop where
  line : pool.marks.Pairwise fun a b => a.2 = false → b.2 = false
  taken : taken labels = (pool.marks.filter (·.2)).map (·.1)
  busy : pool.jobs.countP (·.2.isWorking) ≤ pool.workers

theorem inLine_start (p : ProbePlan) (due : List Server) (old : Ledger)
    : InLine [] (start p due old) := by
  have marks_eq : (start p due old).marks = due.map (·, false) := by
    simp [marks, start, begun]
  constructor
  case line =>
    rw [marks_eq, List.pairwise_map]
    exact List.pairwise_of_forall fun _ _ => id
  case taken =>
    rw [marks_eq]
    simp [Pool.taken]
  case busy => simp [start, Phase.isWorking, Function.comp_def]

/-- A server that is taken up is the first one that waits: those before it were taken up already,
and those after it wait.
-/
theorem InLine.take {workers : Nat} {before after : List (Server × Phase)}
    (inLine : InLine labels ⟨workers, before ++ (s, .waiting) :: after, l⟩)
    (free : (before ++ (s, .waiting) :: after).countP (·.2.isWorking) < workers)
    (first : ∀ job ∈ before, job.2 ≠ .waiting)
    : InLine (labels ++ [.took s])
        ⟨workers, before ++ (s, .working (p.measuring s)) :: after, l⟩ := by
  obtain ⟨line, taken_eq, -⟩ := inLine
  have marks_eq (phase : Phase)
      : (⟨workers, before ++ (s, phase) :: after, l⟩ : Pool).marks
        = before.map (fun job => (job.1, begun job.2))
          ++ (s, begun phase) :: after.map (fun job => (job.1, begun job.2)) := by
    simp [marks]
  rw [marks_eq] at line taken_eq
  have front : ∀ mark ∈ before.map (fun job => (job.1, begun job.2)), mark.2 = true := by
    intro mark member
    obtain ⟨job, hjob, rfl⟩ := List.mem_map.1 member
    have := first job hjob
    cases h : job.2 <;> simp_all [begun]
  generalize before.map (fun job => (job.1, begun job.2)) = front_ at *
  generalize after.map (fun job => (job.1, begun job.2)) = back at *
  obtain ⟨front_line, back_line, -⟩ := List.pairwise_append.1 line
  obtain ⟨back_waits, back_line⟩ := List.pairwise_cons.1 back_line
  have none_begun : back.filter (·.2) = [] :=
    List.filter_eq_nil_iff.2 fun mark member => by simp [back_waits mark member rfl]
  constructor
  case line =>
    rw [marks_eq]
    refine List.pairwise_append.2 ⟨front_line, List.pairwise_cons.2 ⟨?_, back_line⟩, ?_⟩
    · exact fun _ _ waits => by cases waits
    · intro mark member _ _ waits
      cases (front mark member).symm.trans waits
  case taken =>
    rw [marks_eq, taken_concat, taken_eq]
    simp [none_begun, begun, Label.taken?]
  case busy =>
    simp only [List.countP_append, List.countP_cons, Phase.isWorking, Bool.false_eq_true,
      if_false, if_true] at free ⊢
    omega

theorem InLine.step (inLine : InLine labels pool) (step : Step p now pool label pool')
    : InLine (labels ++ [label]) pool' := by
  obtain ⟨moves, free, first⟩ := step
  next workers before after s phase phase' l l' =>
  -- a server that was taken up before stays in its place
  have stays (old : begun phase = true) (new : begun phase' = true)
      (unseen : label.taken? = none)
      (still : phase'.isWorking = true → phase.isWorking = true)
      : InLine (labels ++ [label]) ⟨workers, before ++ (s, phase') :: after, l'⟩ := by
    obtain ⟨line, taken_eq, busy⟩ := inLine
    have marks_eq : (⟨workers, before ++ (s, phase') :: after, l'⟩ : Pool).marks
        = (⟨workers, before ++ (s, phase) :: after, l⟩ : Pool).marks := by
      simp [marks, old, new]
    constructor
    case line => rwa [marks_eq]
    case taken =>
      rw [marks_eq, ← taken_eq, taken_concat, unseen, Option.toList_none, List.append_nil]
    case busy =>
      refine Nat.le_trans ?_ busy
      simp only [List.countP_append, List.countP_cons]
      have le : (if phase'.isWorking then 1 else 0) ≤ (if phase.isWorking then 1 else 0) := by
        split
        · next working => exact Nat.le_of_eq (if_pos (still working)).symm
        · exact Nat.zero_le _
      omega
  cases moves with
  | take => exact inLine.take (free rfl) (first rfl)
  | act => exact stays rfl rfl rfl id
  | record | fail => exact stays rfl rfl rfl fun _ => rfl

/-- The servers that were taken up are in the order of the line. -/
theorem InLine.taken_sublist (inLine : InLine labels pool)
    : (Pool.taken labels).Sublist (pool.jobs.map (·.1)) := by
  have servers : pool.jobs.map (·.1) = pool.marks.map (·.1) := by
    simp [marks, Function.comp_def]
  rw [inLine.taken, servers]
  exact List.filter_sublist.map _

-----------------------------------------------------------------------------------------
-- Steps that are left
-----------------------------------------------------------------------------------------

/-- The pool takes at most so many steps. -/
inductive Left (p : ProbePlan) : List (Server × Phase) → Nat → Prop
  | none : Left p [] 0
  | more {s : Server} {phase : Phase} {rest : List (Server × Phase)} {n k : Nat}
    (first : StepsLeft p phase n) (others : Left p rest k)
    : Left p ((s, phase) :: rest) (n + k)

theorem left_start (p : ProbePlan) (due : List Server) (old : Ledger)
    : Left p (start p due old).jobs (due.length * (5 * p.attempts + 2)) := by
  unfold start
  dsimp only
  induction due with
  | nil => rw [List.length_nil, Nat.zero_mul]; exact .none
  | cons s rest ih =>
      rw [List.length_cons, Nat.succ_mul, Nat.add_comm]
      exact .more .waiting ih

/-- A step uses up one of those that are left, by induction on the servers before the one that
comes on.
-/
theorem Move.left {before after : List (Server × Phase)} {n : Nat}
    (moves : Move p now s phase l label phase' l')
    (left : Left p (before ++ (s, phase) :: after) n)
    : ∃ k, n = k + 1 ∧ Left p (before ++ (s, phase') :: after) k := by
  induction before generalizing n with
  | nil =>
      cases left with
      | more first others =>
          obtain ⟨k, rfl, first'⟩ := moves.stepsLeft first
          exact ⟨_, Nat.add_right_comm k 1 _, .more first' others⟩
  | cons job rest ih =>
      cases left with
      | more first others =>
          obtain ⟨k, rfl, others'⟩ := ih others
          exact ⟨_, rfl, .more first others'⟩

/-- In front of the first server that waits all were taken up, by induction on the line. -/
theorem exists_first_waiting {jobs : List (Server × Phase)}
    (waits : ∃ job ∈ jobs, job.2 = .waiting)
    : ∃ before s after, jobs = before ++ (s, .waiting) :: after
        ∧ ∀ job ∈ before, job.2 ≠ .waiting := by
  induction jobs with
  | nil =>
      obtain ⟨job, member, -⟩ := waits
      cases member
  | cons job rest ih =>
      by_cases here : job.2 = .waiting
      · exact ⟨[], job.1, rest, by rw [← here]; rfl, by simp⟩
      · obtain ⟨other, member, waiting⟩ := waits
        rcases List.mem_cons.1 member with rfl | member
        · exact absurd waiting here
        · obtain ⟨before, s, after, rfl, first⟩ := ih ⟨other, member, waiting⟩
          exact ⟨job :: before, s, after, rfl, List.forall_mem_cons.2 ⟨here, first⟩⟩

/-- A pool with a worker goes on until it is finished: a server that is worked on can come on,
whatever the network and the clock answer, and if there is none a worker is free.
-/
theorem exists_step (p : ProbePlan) (now : Instant) (hands : 0 < pool.workers)
    (unfinished : pool.isFinished = false)
    : ∃ label pool', Step p now pool label pool' := by
  obtain ⟨workers, jobs, l⟩ := pool
  by_cases working : ∃ job ∈ jobs, job.2.isWorking = true
  · obtain ⟨⟨s, phase⟩, member, works⟩ := working
    obtain ⟨before, after, rfl⟩ := List.append_of_mem member
    obtain ⟨rest, rfl⟩ : ∃ rest, phase = .working rest := by
      cases phase with
      | working rest => exact ⟨rest, rfl⟩
      | waiting | finished => cases works
    have moved {label : Label} {phase' : Phase} {l' : Ledger}
        (moves : Move p now s (.working rest) l label phase' l')
        : ∃ label pool', Step p now ⟨workers, before ++ (s, .working rest) :: after, l⟩ label
            pool' :=
      ⟨_, _, .move moves (fun h => by cases h) (fun h => by cases h)⟩
    cases rest with
    | done result =>
        cases result with
        | error fault => exact moved (.fail l fault)
        | ok latency => exact moved (.record l latency)
    | exchange m next => exact moved (.act l (.exchange m next (.failed .timeout)))
    | clock next => exact moved (.act l (.clock next .zero))
  · have idle : jobs.countP (·.2.isWorking) = 0 :=
      List.countP_eq_zero.2 fun job member works => working ⟨job, member, works⟩
    have waits : ∃ job ∈ jobs, job.2 = .waiting := by
      obtain ⟨job, member, unfinished⟩ := List.all_eq_false.1 unfinished
      refine ⟨job, member, ?_⟩
      cases phase : job.2 with
      | waiting => rfl
      | working rest => exact absurd ⟨job, member, by rw [phase]; rfl⟩ working
      | finished result => exact absurd (by rw [phase]; rfl) unfinished
    obtain ⟨before, s, after, rfl, first⟩ := exists_first_waiting waits
    exact ⟨_, _, .move (.take l) (fun _ => idle ▸ hands) fun _ => first⟩

-----------------------------------------------------------------------------------------
-- One worker
-----------------------------------------------------------------------------------------

/-- With one worker the server that is worked on is the one that was taken up last, and the actions
for one server come after all actions for those before it.
-/
structure Serial (labels : List Label) (pool : Pool) : Prop where
  last
    : ∀ s rest, (s, .working rest) ∈ pool.jobs → (taken labels).getLast? = some s
  order : acted labels = (taken labels).flatMap fun s => (actionsOf labels s).map (s, ·)

theorem serial_start (p : ProbePlan) (due : List Server) (old : Ledger)
    : Serial [] (start p due old) := by
  constructor
  case last =>
    intro s rest member
    obtain ⟨t, -, same⟩ := List.mem_map.1 member
    cases (Prod.ext_iff.1 same).2
  case order => rfl

/-- One more action for the server that was taken up last comes behind all others. -/
theorem acted_did {front : List Server} (fresh : s ∉ front)
    (taken_eq : taken labels = front ++ [s])
    (order : acted labels = (taken labels).flatMap fun t => (actionsOf labels t).map (t, ·))
    (action : Action)
    : acted (labels ++ [.did s action])
      = (taken (labels ++ [.did s action])).flatMap fun t =>
          (actionsOf (labels ++ [.did s action]) t).map (t, ·) := by
  have still : taken (labels ++ [.did s action]) = front ++ [s] := by
    rw [taken_concat, ← taken_eq]
    exact List.append_nil _
  have others : front.flatMap (fun t => (actionsOf (labels ++ [.did s action]) t).map (t, ·))
      = front.flatMap fun t => (actionsOf labels t).map (t, ·) := by
    refine List.flatMap_congr fun t member => ?_
    have other : s ≠ t := fun same => fresh (same ▸ member)
    rw [actionsOf_concat, Label.action?, if_neg other, Option.toList_none, List.append_nil]
  rw [acted_concat, order, still, taken_eq, List.flatMap_append, List.flatMap_append, others,
    List.flatMap_singleton, List.flatMap_singleton, actionsOf_concat]
  simp [Label.acted?, Label.action?]

theorem Serial.step {old : Ledger} (distinct : due.Nodup) (alone : pool.workers ≤ 1)
    (reached : Reached p now due old labels pool) (inLine : InLine labels pool)
    (serial : Serial labels pool) (step : Step p now pool label pool')
    : Serial (labels ++ [label]) pool' := by
  have taken_nodup : (taken labels).Nodup :=
    (reached.servers ▸ distinct).sublist inLine.taken_sublist
  obtain ⟨last, order⟩ := serial
  obtain ⟨moves, free, -⟩ := step
  next workers before after s phase phase' l l' =>
  have different : ((before ++ (s, phase) :: after).map (·.1)).Nodup :=
    reached.servers ▸ distinct
  have here : (s, phase) ∈ before ++ (s, phase) :: after :=
    List.mem_append_right _ (List.mem_cons_self ..)
  have unseen (t : Server) (quiet : label.action? t = none)
      : actionsOf (labels ++ [label]) t = actionsOf labels t := by
    rw [actionsOf_concat, quiet, Option.toList_none, List.append_nil]
  have same_taken (quiet : label.taken? = none) : taken (labels ++ [label]) = taken labels := by
    rw [taken_concat, quiet, Option.toList_none, List.append_nil]
  constructor
  case last =>
    intro t rest member
    rcases (mem_replaced _ different).1 member with same | ⟨before_, -⟩
    · cases same
      cases moves with
      | take => simp [taken_concat, Label.taken?]
      | act =>
          rw [same_taken rfl]
          exact last _ _ here
    · cases moves with
      | take =>
          have busy : 0 < (before ++ (s, .waiting) :: after).countP (·.2.isWorking) :=
            List.countP_pos_iff.2 ⟨_, before_, rfl⟩
          have := free rfl
          have : workers ≤ 1 := alone
          omega
      | act | record | fail =>
          rw [same_taken rfl]
          exact last _ _ before_
  case order =>
    cases moves with
    | take =>
        have nothing : actionsOf labels s = [] := (reached.follows _ here).nothing
        simp only [acted_concat, taken_concat, Label.acted?, Label.taken?, Option.toList_none,
          Option.toList_some, List.append_nil, List.flatMap_append, List.flatMap_singleton,
          unseen _ rfl, nothing, List.map_nil]
        exact order
    | @act _ _ action _ does =>
        obtain ⟨front, taken_eq⟩ := List.getLast?_eq_some_iff.1 (last _ _ here)
        rw [taken_eq] at taken_nodup
        have fresh : s ∉ front := fun member =>
          (List.nodup_append.1 taken_nodup).2.2 s member s (List.mem_singleton_self s) rfl
        exact acted_did fresh taken_eq order action
    | record | fail =>
        simp only [acted_concat, same_taken rfl, Label.acted?, Option.toList_none,
          List.append_nil, unseen _ rfl]
        exact order

-----------------------------------------------------------------------------------------
-- Runs
-----------------------------------------------------------------------------------------

/-- What a pool of workers can be seen to do at any time of a run: it takes a bounded number of
steps and goes on until it is finished, the servers are taken up in the order of the line, no more
workers are busy than there are, and only the servers of the line are asked.
-/
structure Running (p : ProbePlan) (now : Instant) (due : List Server) (labels : List Label)
    (pool : Pool)
    : Prop where
  bounded : labels.length ≤ due.length * (5 * p.attempts + 2)
  goesOn : pool.isFinished = true ∨ ∃ label pool', Step p now pool label pool'
  taken : (taken labels).Sublist due
  busy : pool.jobs.countP (·.2.isWorking) ≤ min p.workers due.length
  asks
    : ∀ s, ∀ m ∈ Action.sent (actionsOf labels s), s ∈ due ∧ m.AsksFor s.address .root .ns

/-- What a pool has done when it is finished. It gives the number of servers. Each of them was
asked as often as the plan says, and is recorded at the present time with the latency that its own
attempts give; all others are as they were before. With one worker the servers are asked one
after the other, in the order of the line.
-/
structure Probed (p : ProbePlan) (now : Instant) (due : List Server) (old : Ledger)
    (labels : List Label) (pool : Pool)
    : Prop where
  result : pool.result = .ok due.length
  taken : Pool.taken labels = due
  turns
    : ∀ s ∈ due, ∃ outcomes latency,
        p.Attempts s (actionsOf labels s) outcomes
        ∧ outcomes.length = p.attempts
        ∧ pool.ledger.find? s = some ⟨s, latency, now⟩
        ∧ ProbePlan.Summarizes latency outcomes
  others : ∀ s, s ∉ due → actionsOf labels s = [] ∧ pool.ledger.find? s = old.find? s
  serial
    : p.workers = 1 → acted labels = due.flatMap fun s => (actionsOf labels s).map (s, ·)

section Runs

variable {old : Ledger}

theorem Run.workers_eq (run : Run p now pool labels pool') : pool'.workers = pool.workers := by
  induction run with
  | here => rfl
  | step _ step ih =>
      cases step
      exact ih

/-- The servers stay, and each is in a phase that its measuring can come into: by induction on the
steps.
-/
theorem Run.follows (run : Run p now (start p due old) labels pool)
    : pool.jobs.map (·.1) = due
      ∧ ∀ job ∈ pool.jobs, ∃ actions, Follows p job.1 actions job.2 := by
  induction run with
  | here =>
      refine ⟨by simp [start, Function.comp_def], fun job member => ?_⟩
      obtain ⟨t, -, rfl⟩ := List.mem_map.1 member
      exact ⟨[], .waiting⟩
  | step earlier step ih =>
      obtain ⟨servers, follows⟩ := ih
      obtain ⟨moves, -, -⟩ := step
      next workers before after s phase phase' l l' =>
      refine ⟨servers_replaced.trans servers, fun job member => ?_⟩
      rcases List.mem_append.1 member with member | member
      · exact follows job (List.mem_append_left _ member)
      · rcases List.mem_cons.1 member with rfl | member
        · obtain ⟨actions, here⟩ := follows (s, phase) (by simp)
          exact ⟨_, moves.follows here⟩
        · exact follows job (List.mem_append_right _ (List.mem_cons_of_mem _ member))

/-- What a server ended with when all are finished. -/
theorem Run.completes (run : Run p now (start p due old) labels pool)
    (finished : pool.isFinished = true) {job : Server × Phase} (member : job ∈ pool.jobs)
    : ∃ actions result,
        job.2 = .finished result ∧ (p.measuring job.1).Completes actions result := by
  obtain ⟨actions, follows⟩ := run.follows.2 job member
  obtain ⟨result, phase, completes⟩ :=
    follows.finished_completes (List.all_eq_true.1 finished job member)
  exact ⟨actions, result, phase, completes⟩

/-- A pool whose payload fits gives the number of servers. -/
theorem Run.result_of_fits (fits : p.manner.Fits)
    (run : Run p now (start p due old) labels pool) (finished : pool.isFinished = true)
    : pool.result = .ok due.length := by
  have faultless : pool.jobs.findSome? (·.2.fault?) = none := by
    refine List.findSome?_eq_none_iff.2 fun job member => ?_
    obtain ⟨actions, result, phase, completes⟩ := run.completes finished member
    obtain ⟨-, latency, -, -, rfl, -⟩ := ProbePlan.measuring_attempts fits completes
    rw [phase]
    rfl
  rw [result, faultless, ← run.follows.1, List.length_map]

/-- A pool gives a fault exactly if its payload does not fit and there is a server to ask. -/
theorem Run.result_error_iff (tries : 0 < p.attempts)
    (run : Run p now (start p due old) labels pool) (finished : pool.isFinished = true)
    {fault : PayloadFault}
    : pool.result = .error fault
      ↔ due ≠ [] ∧ ¬p.manner.Fits ∧ fault = ⟨p.manner.payload⟩ := by
  by_cases fits : p.manner.Fits
  · simp [run.result_of_fits fits finished, fits]
  · cases jobs : pool.jobs with
    | nil =>
        have none : due = [] := by rw [← run.follows.1, jobs]; rfl
        simp [Pool.result, jobs, none]
    | cons first rest =>
        have some_ : due ≠ [] := by rw [← run.follows.1, jobs]; simp
        obtain ⟨actions, result, phase, completes⟩ :=
          run.completes finished (jobs ▸ List.mem_cons_self ..)
        obtain rfl := ProbePlan.measuring_of_not_fits fits tries completes
        simp [Pool.result, jobs, phase, Phase.fault?, some_, fits, eq_comm]

/-- What holds of the start and of every step holds of every run, by induction on the steps. -/
theorem Run.reached (distinct : due.Nodup)
    (past : ∀ m ∈ old.measurements, m.time.microseconds ≤ now.microseconds)
    (run : Run p now (start p due old) labels pool)
    : Reached p now due old labels pool ∧ InLine labels pool
      ∧ (p.workers = 1 → Serial labels pool)
      ∧ ∃ n, Left p pool.jobs n ∧ labels.length + n = due.length * (5 * p.attempts + 2) := by
  induction run with
  | here =>
      exact ⟨reached_start p old past, inLine_start p due old, fun _ => serial_start p due old,
        _, left_start p due old, Nat.zero_add _⟩
  | step before step ih =>
      obtain ⟨reached, inLine, serial, n, left, length⟩ := ih
      refine ⟨reached.step distinct step, inLine.step step, fun one => ?_, ?_⟩
      · refine (serial one).step distinct ?_ reached inLine step
        rw [before.workers_eq]
        exact one ▸ Nat.min_le_left ..
      · cases step with
        | move moves =>
            obtain ⟨k, rfl, left'⟩ := moves.left left
            exact ⟨k, left', by rw [List.length_append, List.length_singleton]; omega⟩

theorem Run.running (hands : 0 < p.workers) (distinct : due.Nodup)
    (past : ∀ m ∈ old.measurements, m.time.microseconds ≤ now.microseconds)
    (run : Run p now (start p due old) labels pool)
    : Running p now due labels pool := by
  obtain ⟨reached, inLine, -, n, -, length⟩ := run.reached distinct past
  have workers : pool.workers = min p.workers due.length := run.workers_eq
  constructor
  case bounded => omega
  case goesOn =>
    cases finished : pool.isFinished with
    | true => exact .inl rfl
    | false =>
        refine .inr (exists_step p now ?_ finished)
        obtain ⟨job, member, -⟩ := List.all_eq_false.1 finished
        have : 0 < due.length :=
          List.length_pos_of_mem (reached.servers ▸ List.mem_map_of_mem member)
        omega
  case taken => exact reached.servers ▸ inLine.taken_sublist
  case busy => exact workers ▸ inLine.busy
  case asks =>
    intro s m member
    by_cases wanted : s ∈ due
    · obtain ⟨job, hjob, rfl⟩ := List.mem_map.1 (reached.servers ▸ wanted)
      refine ⟨wanted, ?_⟩
      exact (reached.follows job hjob).asks m member
    · rw [reached.strangers s wanted] at member
      cases member

/-- A pool whose payload fits measures every server. -/
theorem Run.probed (fits : p.manner.Fits) (distinct : due.Nodup)
    (past : ∀ m ∈ old.measurements, m.time.microseconds ≤ now.microseconds)
    (run : Run p now (start p due old) labels pool) (finished : pool.isFinished = true)
    : Probed p now due old labels pool := by
  obtain ⟨reached, inLine, serial, -⟩ := run.reached distinct past
  have done_ (job : Server × Phase) (member : job ∈ pool.jobs)
      : ∃ outcomes latency,
          job.2 = .finished (.ok latency)
          ∧ p.Attempts job.1 (actionsOf labels job.1) outcomes
          ∧ outcomes.length = p.attempts
          ∧ ProbePlan.Summarizes latency outcomes := by
    obtain ⟨result, phase, completes⟩ :=
      (reached.follows job member).finished_completes (List.all_eq_true.1 finished job member)
    obtain ⟨outcomes, latency, attempts, length, rfl, summary⟩ :=
      ProbePlan.measuring_attempts fits completes
    exact ⟨outcomes, latency, phase, attempts, length, summary⟩
  have taken_eq : Pool.taken labels = due := by
    have all_begun : pool.marks.filter (·.2) = pool.marks := by
      refine List.filter_eq_self.2 fun mark member => ?_
      obtain ⟨job, hjob, rfl⟩ := List.mem_map.1 member
      obtain ⟨-, latency, phase, -⟩ := done_ job hjob
      simp [phase, begun]
    rw [inLine.taken, all_begun, ← reached.servers]
    simp [marks, Function.comp_def]
  constructor
  case result => exact run.result_of_fits fits finished
  case taken => exact taken_eq
  case turns =>
    intro s wanted
    obtain ⟨⟨s, phase⟩, member, rfl⟩ := List.mem_map.1 (reached.servers ▸ wanted)
    obtain ⟨outcomes, latency, rfl, attempts, length, summary⟩ := done_ _ member
    exact ⟨outcomes, latency, attempts, length, reached.recorded _ _ member, summary⟩
  case others =>
    intro s unwanted
    refine ⟨reached.strangers s unwanted, reached.kept s fun latency member => ?_⟩
    exact unwanted (reached.servers ▸ List.mem_map_of_mem member)
  case serial =>
    intro one
    rw [(serial one).order, taken_eq]

end Runs

end Pool

end NameserverAudit
