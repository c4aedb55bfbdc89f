import NameserverAudit.Proofs.Latency.Rounds
import NameserverAudit.Proofs.Time.Spans

/-! Which settings let a probe break off. Whatever servers answer, a probe gives a number, unless
the greatest age is no span of time and some measurement is to be judged by it, or a message has
to announce a payload that does not fit. Main statement: exactly then does a probe by checked
settings break off.
-/

namespace NameserverAudit

-----------------------------------------------------------------------------------------
-- Ages that are no spans
-----------------------------------------------------------------------------------------

/-- A measurement cannot be judged by an age that is no span. -/
theorem Ledger.isFresh_of_error {l : Ledger} {server : Server} {maxAge : Seconds}
    {fault : SpanFault} (now : Instant) (age : maxAge.toMicroseconds = .error fault)
    (known : l.find? server ≠ none)
    : l.isFresh server maxAge (.utc now) = .error (.span fault) := by
  obtain ⟨m, hm⟩ := Option.ne_none_iff_exists'.1 known
  simp [isFresh, hm, age]

namespace ProbePlan

variable {p : ProbePlan} {l : Ledger}

/-- By an age that is no span servers can be judged only if none has a measurement, and all are
stale then: by induction on the servers.
-/
theorem stale_of_error {fault : SpanFault} (now : Instant)
    (age : (Seconds.real p.maxAge).toMicroseconds = .error fault) (servers : List Server)
    : ((∀ s ∈ servers, l.find? s = none) → p.stale l now servers = .ok servers)
      ∧ ((∃ s ∈ servers, l.find? s ≠ none)
        → p.stale l now servers = .error (.span fault)) := by
  induction servers with
  | nil => simp [stale]
  | cons server rest ih =>
      obtain ⟨unknown, known⟩ := ih
      by_cases first : l.find? server = none
      · have unjudged : l.isFresh server (.real p.maxAge) (.utc now) = .ok false := by
          simp [Ledger.isFresh, first]
        constructor
        · intro none
          have later := unknown fun s hs => none s (List.mem_cons_of_mem server hs)
          simp [stale, unjudged, later]
        · rintro ⟨s, hs, some⟩
          have hrest := (List.mem_cons.1 hs).resolve_left fun e => some (e ▸ first)
          simp [stale, unjudged, known ⟨s, hrest, some⟩]
      · constructor
        · intro none
          exact absurd (none server List.mem_cons_self) first
        · intro _
          simp [stale, Ledger.isFresh_of_error now age first]

end ProbePlan

-----------------------------------------------------------------------------------------
-- A probe
-----------------------------------------------------------------------------------------

namespace Auditor

variable {a : Auditor} {now : Instant} {force : Bool} {j : Journal}

theorem probe_of_due_error {fault : ProbeFault}
    (h : a.probes.due a.directory a.ledger now force = .error fault)
    : (a.probe now force j).1 = .error (.probe fault) := by
  simp [probe, ProbePlan.run, h]

/-- If it is known which servers are due, only a payload that does not fit can break off a probe. -/
theorem probe_error_iff_of_due (tries : 0 < a.probes.attempts) {due : List Server}
    {fault : RunFault} (h : a.probes.due a.directory a.ledger now force = .ok due)
    : (a.probe now force j).1 = .error fault
      ↔ due ≠ [] ∧ ¬a.probes.manner.Fits
        ∧ fault = .probe (.payload ⟨a.probes.manner.payload⟩) := by
  by_cases fits : a.probes.manner.Fits
  · obtain ⟨l', j', hrun⟩ := ProbePlan.run_of_fits fits h j
    simp [probe, hrun, fits]
  · cases due with
    | nil => simp [probe, ProbePlan.run, h]
    | cons first rest =>
        have hrun : (a.probes.run a.directory now force a.ledger j).1
            = .error (.payload ⟨a.probes.manner.payload⟩) := by
          simp only [ProbePlan.run, h]
          generalize j.add (.workers (min a.probes.workers (first :: rest).length)) = k
          have broken := ProbePlan.measureAll_of_not_fits now fits tries
            (List.cons_ne_nil first rest) a.ledger k
          rcases hall : a.probes.measureAll now (first :: rest) a.ledger k with ⟨result, after⟩
          rw [hall] at broken
          obtain rfl : result = _ := broken
          rfl
        rcases hresult : a.probes.run a.directory now force a.ledger j with ⟨result, l', j'⟩
        rw [hresult] at hrun
        obtain rfl : result = _ := hrun
        simp [probe, hresult, fits, eq_comm]

end Auditor

-----------------------------------------------------------------------------------------
-- Checked settings
-----------------------------------------------------------------------------------------

namespace Settings

/-- The greatest age of a measurement as a span of time, in microseconds. -/
def span (s : Settings) : Except SpanFault Int :=
  (Seconds.real s.maxAge).toMicroseconds

/-- The server has no measurement, or one beyond the greatest age. -/
def OutOfDate (s : Settings) (l : Ledger) (now : Instant) (server : Server) : Prop :=
  ∀ m, l.find? server = some m →
    ∃ span, s.span = .ok span ∧ span < now.microseconds - m.time.microseconds

/-- Every measurement that a probe has to judge can be judged: none if the probe is forced. -/
def Judges (s : Settings) (servers : List Server) (l : Ledger) (force : Bool) : Prop :=
  force = true ∨ ∀ t ∈ servers, l.find? t ≠ none → ∃ span, s.span = .ok span

/-- `Breaks s servers l now force fault`: by these settings a probe of the servers breaks off
with `fault`, one constructor for each way. The age is looked at first; the payload, which has
sixteen bits in a message, only if a server is due.
-/
inductive Breaks (s : Settings) (servers : List Server) (l : Ledger) (now : Instant)
    (force : Bool) : RunFault → Prop
  | age {server : Server} {fault : SpanFault} (unforced : force = false)
      (wanted : server ∈ servers) (known : l.find? server ≠ none)
      (noSpan : s.span = .error fault)
      : Breaks s servers l now force (.probe (.age (.span fault)))
  | payload {server : Server} (judged : s.Judges servers l force) (wanted : server ∈ servers)
      (due : force = true ∨ s.OutOfDate l now server)
      (misfit : s.payload < 0 ∨ 65535 < s.payload)
      : Breaks s servers l now force (.probe (.payload ⟨s.payload⟩))

theorem families_known (s : Settings) : AreKnown s.families := by
  intro f hf
  unfold families at hf
  split at hf <;> simp_all

theorem planOf_not_fits_iff (s : Settings) (network : Network)
    : ¬(Auditor.planOf s network).manner.Fits ↔ s.payload < 0 ∨ 65535 < s.payload := by
  show ¬(0 ≤ s.payload ∧ s.payload ≤ 65535) ↔ _
  omega

theorem planOf_tries (s : Settings) (network : Network)
    : 0 < (Auditor.planOf s network).attempts := by
  show 0 < (max 1 s.attempts).toNat
  omega

end Settings

namespace ProbePlan

variable {s : Settings} {d : Zone.Directory} {servers : List Server} {l : Ledger}
  {force : Bool}

/-- If every measurement can be judged it is known which servers are due: all wanted ones if that
is forced, or else those that have no measurement or one beyond the greatest age.
-/
theorem due_of_judged (network : Network) (wanted : d.servers s.families = .ok servers)
    (now : Instant) (judged : s.Judges servers l force)
    : ∃ due, (Auditor.planOf s network).due d l now force = .ok due
      ∧ ∀ t, t ∈ due ↔ t ∈ servers ∧ (force = true ∨ s.OutOfDate l now t) := by
  let p := Auditor.planOf s network
  have planned : d.servers p.families = .ok servers := wanted
  cases age : s.span with
  | ok span =>
      obtain ⟨due, hdue, mem⟩ := p.due_eq planned now age force l
      refine ⟨due, hdue, fun t => (mem t).trans (and_congr_right fun _ => or_congr_right ?_)⟩
      simp only [Ledger.HasSince, not_exists, not_and, Settings.OutOfDate, age, Except.ok.injEq,
        exists_eq_left']
      refine forall₂_congr fun m _ => ?_
      omega
  | error fault =>
      cases force with
      | true => exact ⟨servers, by simp [due, planned, p], by simp⟩
      | false =>
          have unknown : ∀ t ∈ servers, l.find? t = none := by
            intro t ht
            by_contra known
            obtain ⟨span, hspan⟩ := judged.resolve_left Bool.false_ne_true t ht known
            cases hspan.symm.trans age
          have stale := (p.stale_of_error now age servers).1 unknown
          refine ⟨servers, by simp [due, planned, stale, p],
            fun t => ⟨fun ht => ⟨ht, .inr fun m hm => ?_⟩, And.left⟩⟩
          cases (unknown t ht).symm.trans hm

/-- A measurement that no age can judge makes it unknown which servers are due. -/
theorem due_of_error {fault : SpanFault} (network : Network)
    (wanted : d.servers s.families = .ok servers) (now : Instant)
    (noSpan : s.span = .error fault) (known : ∃ t ∈ servers, l.find? t ≠ none)
    : (Auditor.planOf s network).due d l now false = .error (.age (.span fault)) := by
  let p := Auditor.planOf s network
  have planned : d.servers p.families = .ok servers := wanted
  have unjudged := (p.stale_of_error now noSpan servers).2 known
  simp [due, planned, unjudged, p]

end ProbePlan

namespace Auditor

section

variable {a : Auditor} {s : Settings} {network : Network} {now : Instant}
  {servers : List Server} {force : Bool}

/-- If every measurement can be judged only a payload that does not fit breaks off a probe, once
there is a server to ask.
-/
theorem probe_error_iff_of_judges (built : a.probes = planOf s network)
    (wanted : a.directory.servers s.families = .ok servers)
    (judged : s.Judges servers a.ledger force) (j : Journal) (fault : RunFault)
    : (a.probe now force j).1 = .error fault
      ↔ s.Breaks servers a.ledger now force fault := by
  obtain ⟨due, hdue, mem⟩ := ProbePlan.due_of_judged network wanted now judged
  rw [← built] at hdue
  have tries : 0 < a.probes.attempts := built ▸ s.planOf_tries network
  have payload : a.probes.manner.payload = s.payload := built ▸ rfl
  rw [probe_error_iff_of_due tries hdue, payload, built, s.planOf_not_fits_iff network]
  constructor
  · rintro ⟨some, misfit, rfl⟩
    obtain ⟨server, hs⟩ := List.exists_mem_of_ne_nil due some
    obtain ⟨hserver, outOfDate⟩ := (mem server).1 hs
    exact .payload judged hserver outOfDate misfit
  · intro breaks
    cases breaks with
    | age unforced hserver known noSpan =>
      obtain ⟨span, hspan⟩ := judged.resolve_left (by simp [unforced]) _ hserver known
      cases hspan.symm.trans noSpan
    | payload _ hserver outOfDate misfit =>
      exact ⟨List.ne_nil_of_mem ((mem _).2 ⟨hserver, outOfDate⟩), misfit, rfl⟩

/-- If some measurement cannot be judged, the greatest age is what breaks off a probe. -/
theorem probe_error_iff_of_not_judges (built : a.probes = planOf s network)
    (wanted : a.directory.servers s.families = .ok servers)
    (unjudged : ¬s.Judges servers a.ledger force) (j : Journal) (fault : RunFault)
    : (a.probe now force j).1 = .error fault
      ↔ s.Breaks servers a.ledger now force fault := by
  have stuck := unjudged
  simp only [Settings.Judges, not_or, Bool.not_eq_true, not_forall, not_exists] at stuck
  obtain ⟨rfl, server, hserver, known, noSpan⟩ := stuck
  obtain ⟨f, hspan⟩ : ∃ f, s.span = .error f := by
    cases age : s.span with
    | ok span => exact absurd age (noSpan span)
    | error f => exact ⟨f, rfl⟩
  have broken : (a.probe now false j).1 = .error (.probe (.age (.span f))) := by
    apply probe_of_due_error
    rw [built]
    exact ProbePlan.due_of_error network wanted now hspan ⟨server, hserver, known⟩
  rw [broken]
  constructor
  · intro same
    cases same
    exact .age rfl hserver known hspan
  · intro breaks
    cases breaks with
    | age _ _ _ hspan' => rw [Except.error.inj (hspan.symm.trans hspan')]
    | payload judged _ _ _ => exact absurd judged unjudged

/-- An auditor that was set up probes as its settings say. -/
theorem probes_of_setUp {disk : Disk} {j : Journal} (h : (setUp s network disk j).1 = .ok a)
    : a.probes = planOf s network := by
  unfold setUp at h
  split at h
  · cases h
  · split at h
    · cases h
    · split at h <;> cases h
      rfl

end

/-- A probe by checked settings, with any directory, ledger and network. It breaks off exactly in
the ways of `Settings.Breaks`, and otherwise ends with a number; once it is known which servers are
due it does not matter how the workers of the pool come on. A greatest age that doubles have
is no span exactly if it is undefined, infinite, or not below the limit.
-/
theorem probe_breaks_iff_of_check {a : Auditor} {s : Settings} {network : Network}
    {now : Instant} (checked : s.check = .ok s) (built : a.probes = planOf s network)
    : ∃ servers, a.directory.servers s.families = .ok servers
      ∧ (∀ force j fault,
          (a.probe now force j).1 = .error fault
            ↔ s.Breaks servers a.ledger now force fault)
      ∧ (∀ force due labels pool,
          a.probes.due a.directory a.ledger now force = .ok due
          → Pool.Run a.probes now (.start a.probes due a.ledger) labels pool
          → pool.isFinished = true
          → ∀ fault, pool.result = .error fault
              ↔ s.Breaks servers a.ledger now force (.probe (.payload fault)))
      ∧ (s.maxAge.Proper →
          ((∃ fault, s.span = .error fault)
            ↔ s.maxAge.isFinite = false
              ∨ (Double.ofInt Seconds.limit).le s.maxAge = true)) := by
  obtain ⟨servers, wanted⟩ : ∃ servers, a.directory.servers s.families = .ok servers :=
    Zone.Directory.serversOf_of_known _ s.families_known
  obtain ⟨-, -, -, -, nonneg⟩ := Settings.limits_of_check checked
  have breaks (force : Bool) (j : Journal) (fault : RunFault)
      : (a.probe now force j).1 = .error fault
        ↔ s.Breaks servers a.ledger now force fault := by
    by_cases judged : s.Judges servers a.ledger force
    · exact probe_error_iff_of_judges built wanted judged j fault
    · exact probe_error_iff_of_not_judges built wanted judged j fault
  refine ⟨servers, wanted, breaks, fun force due labels pool hdue run finished fault => ?_,
    fun proper => Seconds.toMicroseconds_error_iff proper nonneg⟩
  have tries : 0 < a.probes.attempts := built ▸ s.planOf_tries network
  rw [run.result_error_iff tries finished, ← breaks force .start, probe_error_iff_of_due tries hdue]
  simp

/-- A zone with one root server, and a ledger that knows it. -/
def knownDisk : Disk :=
  ⟨[(["z"], Text.Utf8.encode ". NS a.root.\na.root. A 192.0.2.1\n".toList),
    (["c"], Text.Utf8.encode
      ("[\x7b\"server_name\": \"a.root.\", \"address\": \"192.0.2.1\", \"latency_ms\": null,"
        ++ " \"measured_at\": \"2024-06-01T00:00:00+00:00\"\x7d]").toList)], []⟩

/-- Settings by which a measurement is fresh for ever. -/
def patientSettings : Settings :=
  { Settings.standard with
    rootZone := some "z"
    ledgerIn := some "c"
    maxAge := .ofInt Seconds.limit }

theorem exists_ok_of_map {ε α β : Type} {r : Except ε α} {f : α → β} {y : β}
    (h : r.toOption.map f = some y)
    : ∃ a, r = .ok a ∧ f a = y := by
  cases r with
  | error fault => cases h
  | ok a => exact ⟨a, rfl, Option.some.inj h⟩

theorem patientSettings_breaks_iff
    : let now : Instant := .ofEpoch 1717200000000000
      patientSettings.check = .ok patientSettings
      ∧ ∃ a, (setUp patientSettings .silent knownDisk .start).1 = .ok a
        ∧ ∃ servers, a.directory.servers patientSettings.families = .ok servers
          ∧ ∀ force j fault,
              (a.probe now force j).1 = .error fault
                ↔ patientSettings.Breaks servers a.ledger now force fault := by
  intro now
  have checked : patientSettings.check = .ok patientSettings := by decide +kernel
  have ready : (setUp patientSettings .silent knownDisk .start).1.toOption.map (fun _ => ())
      = some () := by
    decide +kernel
  obtain ⟨a, ended, -⟩ := exists_ok_of_map ready
  obtain ⟨servers, wanted, breaks, -, -⟩ :=
    probe_breaks_iff_of_check checked (probes_of_setUp ended)
  exact ⟨checked, a, ended, servers, wanted, breaks⟩

/-- Checked settings break off a probe, although the root server has a measurement that is not
older than they allow.
-/
theorem patientSettings_break
    : patientSettings.check = .ok patientSettings
      ∧ ∃ a, (setUp patientSettings .silent knownDisk .start).1 = .ok a
        ∧ (a.probe (.ofEpoch 1717200000000000) false .start).1
          = .error (.probe (.age (.span (.tooManyDays 1000000000)))) := by
  have broken : (setUp patientSettings .silent knownDisk .start).1.toOption.map
        (fun a => (a.probe (.ofEpoch 1717200000000000) false .start).1)
      = some (.error (.probe (.age (.span (.tooManyDays 1000000000))))) := by
    decide +kernel
  exact ⟨by decide +kernel, exists_ok_of_map broken⟩

end Auditor

end NameserverAudit
