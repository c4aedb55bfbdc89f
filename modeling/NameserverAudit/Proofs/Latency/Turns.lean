import NameserverAudit.Latency.Pool
import NameserverAudit.Proofs.Exchange.Posing
import NameserverAudit.Proofs.Exchange.Procedures

/-! What it takes to measure a server. Measuring is a number of attempts, each of which is a query
between two readings of the clock. Main statements: the actions of measuring are as many attempts
as the plan says, the latency is the mean over those that were answered, only the server is asked,
and the number of actions is bounded.
-/

namespace NameserverAudit

open Procedure

-----------------------------------------------------------------------------------------
-- Queries as procedures
-----------------------------------------------------------------------------------------

namespace Manner

variable {m : Manner} {server : String} {q : Question} {type : RecordType}

/-- A query sends at most two messages over UDP and one over TCP. -/
theorem querying_endsWithin : (m.querying server q type).EndsWithin 3 := by
  have overUdp : (m.askingOverUdp server q.name type).EndsWithin 2 := by
    refine EndsWithin.bind (n := 1) (k := 1) (.send _) fun first => ?_
    split
    · exact EndsWithin.bind (n := 1) (k := 0) (.send _) fun _ => .done 0 _
    · exact .done 1 _
  have asked : (m.asking server q.name type).EndsWithin 3 := by
    refine EndsWithin.bind (n := 2) (k := 1) overUdp fun ⟨extended, reply⟩ => ?_
    dsimp only
    split
    · exact .send _
    · exact .done 1 _
  refine EndsWithin.bind (n := 3) (k := 0) asked fun reply => ?_
  split <;> exact .done 0 _

/-- All messages of a query ask the server for the question. -/
theorem querying_sends
    : (m.querying server q type).Sends fun sent => sent.AsksFor server q.name type := by
  have asks (transport : Transport) (extended : Bool)
      : (Procedure.send (m.message transport extended server q.name type)).Sends
          fun sent => sent.AsksFor server q.name type :=
    .send ⟨rfl, rfl, rfl⟩
  have overUdp : (m.askingOverUdp server q.name type).Sends
      fun sent => sent.AsksFor server q.name type := by
    refine (asks .udp true).bind fun first => ?_
    split
    · exact (asks .udp false).bind fun _ => .done _
    · exact .done _
  have asked : (m.asking server q.name type).Sends
      fun sent => sent.AsksFor server q.name type := by
    refine overUdp.bind fun ⟨extended, reply⟩ => ?_
    dsimp only
    split
    · exact asks .tcp extended
    · exact .done _
  refine asked.bind fun reply => ?_
  split <;> exact .done _

/-- A timed query is a query after a reading of the clock, and if it was answered another reading
follows. The answer took what lies between the two.
-/
inductive Timed (m : Manner) (server : String) (q : Question) (type : RecordType)
    : List Action → Except QueryFault (Response × Double) → Prop
  | answered {started ended : Double} {exchanges : List Action} {response : Response}
    (asked : (m.querying server q type).Completes exchanges (.ok response))
    : Timed m server q type (.read started :: exchanges ++ [.read ended])
        (.ok (response, (ended.sub started).mul (.ofInt 1000)))
  | failed {started : Double} {exchanges : List Action} {fault : QueryFault}
    (asked : (m.querying server q type).Completes exchanges (.error fault))
    : Timed m server q type (.read started :: exchanges) (.error fault)

theorem timedQuerying_timed {actions : List Action}
    {answer : Except QueryFault (Response × Double)}
    (h : (m.timedQuerying server q type).Completes actions answer)
    : m.Timed server q type actions answer := by
  obtain ⟨_, rest, started, rfl, hstart, hrest⟩ := completes_bind_iff.1 h
  obtain rfl := completes_readClock_iff.1 hstart
  obtain ⟨exchanges, last, asked, rfl, hasked, hlast⟩ := completes_bind_iff.1 hrest
  cases asked with
  | error fault =>
      obtain ⟨rfl, rfl⟩ := completes_pure_iff.1 hlast
      rw [List.append_nil]
      exact .failed hasked
  | ok response =>
      obtain ⟨_, nothing, ended, rfl, hend, hnothing⟩ := completes_bind_iff.1 hlast
      obtain rfl := completes_readClock_iff.1 hend
      obtain ⟨rfl, rfl⟩ := completes_pure_iff.1 hnothing
      exact .answered hasked

/-- With a payload that fits, posing is a timed query. -/
theorem timedPosing_timed (fits : m.Fits) {actions : List Action}
    {posed : Except PayloadFault (Except QueryFault (Response × Double))}
    (h : (m.timedPosing server q type).Completes actions posed)
    : ∃ answer, posed = .ok answer ∧ m.Timed server q type actions answer := by
  simp only [timedPosing, check_of_fits fits] at h
  obtain ⟨actions, nothing, answer, rfl, hquery, h⟩ := completes_bind_iff.1 h
  obtain ⟨rfl, rfl⟩ := completes_pure_iff.1 h
  rw [List.append_nil]
  exact ⟨answer, rfl, timedQuerying_timed hquery⟩

theorem timedPosing_endsWithin : (m.timedPosing server q type).EndsWithin 5 := by
  unfold timedPosing
  split
  · exact EndsWithin.bind (n := 1) (k := 4) .readClock fun _ => .done 4 _
  · next m' _ =>
    have timed : (m'.timedQuerying server q type).EndsWithin 5 := by
      refine EndsWithin.bind (n := 1) (k := 4) .readClock fun started => ?_
      refine EndsWithin.bind (n := 3) (k := 1) querying_endsWithin fun asked => ?_
      split
      · exact .done 1 _
      · exact EndsWithin.bind (n := 1) (k := 0) .readClock fun _ => .done 0 _
    exact EndsWithin.bind (n := 5) (k := 0) timed fun _ => .done 0 _

theorem timedPosing_sends
    : (m.timedPosing server q type).Sends fun sent => sent.AsksFor server q.name type := by
  unfold timedPosing
  split
  · exact Sends.readClock.bind fun _ => .done _
  · next m' _ =>
    have timed : (m'.timedQuerying server q type).Sends
        fun sent => sent.AsksFor server q.name type := by
      refine Sends.readClock.bind fun started => querying_sends.bind fun asked => ?_
      split
      · exact .done _
      · exact Sends.readClock.bind fun _ => .done _
    exact timed.bind fun _ => .done _

end Manner

-----------------------------------------------------------------------------------------
-- Attempts
-----------------------------------------------------------------------------------------

namespace ProbePlan

variable {p : ProbePlan} {s : Server}

/-- What comes of an attempt: how many milliseconds the answer took, or why there was none. -/
abbrev Outcome := Except QueryFault Double

/-- The milliseconds of those attempts that were answered. -/
def answered (outcomes : List Outcome) : List Double :=
  outcomes.filterMap Except.toOption

/-- By these actions a server was asked for the nameservers of the root, in one timed query for
each outcome.
-/
inductive Attempts (p : ProbePlan) (s : Server) : List Action → List Outcome → Prop
  | none : Attempts p s [] []
  | attempt {actions more : List Action} {answer : Except QueryFault (Response × Double)}
    {outcomes : List Outcome} (asked : p.manner.Timed s.address question .ns actions answer)
    (rest : Attempts p s more outcomes)
    : Attempts p s (actions ++ more) (answer.map (·.2) :: outcomes)

/-- The latency that attempts give: none if no attempt was answered, and otherwise the mean over
those that were.
-/
structure Summarizes (latency : Option Double) (outcomes : List Outcome) : Prop where
  unreachable : latency = none ↔ ∀ outcome ∈ outcomes, ∃ fault, outcome = .error fault
  reachable : ∀ x, latency = some x → x = mean (answered outcomes)

/-- Sampling is as many attempts as are wanted, and gives the times of those that were answered,
by induction on their number.
-/
theorem sampling_attempts (fits : p.manner.Fits) {n : Nat} {actions : List Action}
    {samples : Except PayloadFault (List Double)}
    (h : (p.sampling s n).Completes actions samples)
    : ∃ outcomes,
        p.Attempts s actions outcomes
        ∧ outcomes.length = n
        ∧ samples = .ok (answered outcomes) := by
  induction n generalizing actions samples with
  | zero =>
      obtain ⟨rfl, rfl⟩ := completes_pure_iff.1 h
      exact ⟨[], .none, rfl, rfl⟩
  | succ n ih =>
      obtain ⟨first, more, posed, rfl, hposed, h⟩ := completes_bind_iff.1 h
      obtain ⟨answer, rfl, timed⟩ := Manner.timedPosing_timed fits hposed
      cases answer with
      | error fault =>
          obtain ⟨outcomes, attempts, length, times⟩ := ih h
          exact ⟨.error fault :: outcomes, .attempt timed attempts,
            by rw [List.length_cons, length], times⟩
      | ok answer =>
          obtain ⟨more, nothing, samples, rfl, hmore, h⟩ := completes_bind_iff.1 h
          obtain ⟨rfl, rfl⟩ := completes_pure_iff.1 h
          obtain ⟨outcomes, attempts, length, rfl⟩ := ih hmore
          rw [List.append_nil]
          exact ⟨.ok answer.2 :: outcomes, .attempt timed attempts,
            by rw [List.length_cons, length], rfl⟩

theorem answered_eq_nil_iff {outcomes : List Outcome}
    : answered outcomes = [] ↔ ∀ outcome ∈ outcomes, ∃ fault, outcome = .error fault := by
  rw [answered, List.filterMap_eq_nil_iff]
  refine forall₂_congr fun outcome _ => ?_
  cases outcome <;> simp [Except.toOption]

/-- Measuring a server is as many attempts as the plan says, and gives their latency. -/
theorem measuring_attempts (fits : p.manner.Fits) {actions : List Action}
    {result : Except PayloadFault (Option Double)}
    (h : (p.measuring s).Completes actions result)
    : ∃ outcomes latency,
        p.Attempts s actions outcomes
        ∧ outcomes.length = p.attempts
        ∧ result = .ok latency
        ∧ Summarizes latency outcomes := by
  obtain ⟨actions, nothing, samples, rfl, hsamples, h⟩ := completes_bind_iff.1 h
  obtain ⟨rfl, rfl⟩ := completes_pure_iff.1 h
  obtain ⟨outcomes, attempts, length, rfl⟩ := sampling_attempts fits hsamples
  rw [List.append_nil]
  refine ⟨outcomes, _, attempts, length, rfl, ?_, ?_⟩
  case refine_1 =>
    rw [← answered_eq_nil_iff]
    simp
  case refine_2 =>
    intro x hx
    dsimp only at hx
    split at hx
    · cases hx
    · exact (Option.some.inj hx).symm

/-- An attempt takes at most five actions, by induction on the number of attempts. -/
theorem sampling_endsWithin (p : ProbePlan) (s : Server) (n : Nat)
    : (p.sampling s n).EndsWithin (5 * n) := by
  induction n with
  | zero => exact .done 0 _
  | succ n ih =>
      rw [Nat.mul_succ, Nat.add_comm]
      refine Manner.timedPosing_endsWithin.bind fun posed => ?_
      split
      · exact .done _ _
      · exact ih
      · exact ih.bind (k := 0) fun _ => .done 0 _

theorem measuring_endsWithin (p : ProbePlan) (s : Server)
    : (p.measuring s).EndsWithin (5 * p.attempts) :=
  (p.sampling_endsWithin s p.attempts).bind (k := 0) fun _ => .done 0 _

/-- All messages of measuring ask the server for the nameservers of the root. -/
theorem measuring_sends (p : ProbePlan) (s : Server)
    : (p.measuring s).Sends fun m => m.AsksFor s.address .root .ns := by
  have sampling (n : Nat) : (p.sampling s n).Sends fun m => m.AsksFor s.address .root .ns := by
    induction n with
    | zero => exact .done _
    | succ n ih =>
        have posing : (p.manner.timedPosing s.address question .ns).Sends
            fun m => m.AsksFor s.address .root .ns :=
          Manner.timedPosing_sends (q := question)
        refine posing.bind fun posed => ?_
        split
        · exact .done _
        · exact ih
        · exact ih.bind fun _ => .done _
  exact (sampling p.attempts).bind fun _ => .done _

/-- A server that is asked by itself with a payload that fits is measured. -/
theorem measure_of_fits (fits : p.manner.Fits) (s : Server) (j : Journal)
    : ∃ latency, (p.measure s j).1 = .ok latency := by
  obtain ⟨actions, completes, -⟩ := (p.measuring s).run_completes p.network j
  obtain ⟨outcomes, latency, -, -, result, -⟩ := measuring_attempts fits completes
  exact ⟨latency, result⟩

/-- With a payload that does not fit the first attempt is the end of measuring. -/
theorem measuring_of_not_fits (misfit : ¬p.manner.Fits) (tries : 0 < p.attempts)
    {actions : List Action} {result : Except PayloadFault (Option Double)}
    (h : (p.measuring s).Completes actions result)
    : result = .error ⟨p.manner.payload⟩ := by
  obtain ⟨n, hn⟩ := Nat.exists_eq_add_of_lt tries
  rw [Nat.zero_add] at hn
  simp only [measuring, sampling, hn, Manner.timedPosing, Manner.check_of_not_fits misfit] at h
  obtain ⟨_, rest, samples, rfl, hsamples, h⟩ := completes_bind_iff.1 h
  obtain ⟨_, more, posed, rfl, hposed, hsamples⟩ := completes_bind_iff.1 hsamples
  obtain ⟨_, nothing, started, rfl, -, hposed⟩ := completes_bind_iff.1 hposed
  obtain ⟨-, rfl⟩ := completes_pure_iff.1 hposed
  obtain ⟨-, rfl⟩ := completes_pure_iff.1 hsamples
  obtain ⟨-, rfl⟩ := completes_pure_iff.1 h
  rfl

/-- With a payload that does not fit no message is made. -/
theorem measure_of_not_fits (misfit : ¬p.manner.Fits) (tries : 0 < p.attempts) (s : Server)
    (j : Journal)
    : p.measure s j = (.error ⟨p.manner.payload⟩, j) := by
  obtain ⟨n, hn⟩ := Nat.exists_eq_add_of_lt tries
  rw [Nat.zero_add] at hn
  simp [measure, measuring, sampling, hn, Manner.timedPosing, Manner.check_of_not_fits misfit]
  rfl

end ProbePlan

end NameserverAudit
