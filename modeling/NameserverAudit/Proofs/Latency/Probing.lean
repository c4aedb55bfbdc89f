import NameserverAudit.Proofs.Latency.Lookup
import NameserverAudit.Proofs.Latency.Turns

/-!
What probing does to a ledger. Measurements only get younger, and only measured servers are
added. Main statement: after a run, every wanted server has a fresh measurement.
-/

namespace NameserverAudit

-----------------------------------------------------------------------------------------
-- Spans
-----------------------------------------------------------------------------------------

-- the limits are powers that no step below should compute
attribute [local irreducible] Double.one Double.overflow

theorem Seconds.roundQuotientInt_nonneg {num : Int} (den : Nat) (h : 0 ≤ num)
    : 0 ≤ roundQuotientInt num den := by
  have : ¬num < 0 := by omega
  simp only [roundQuotientInt, this, if_false]
  omega

theorem Double.signed_nonneg {negative : Bool} {n : Nat} (h : negative = false ∨ n = 0)
    : 0 ≤ signed negative n := by
  rcases h with rfl | rfl
  · simp [signed]
  · cases negative <;> decide

theorem Double.mul_nonneg {negative : Bool} {m n : Nat} (h : negative = false ∨ m = 0)
    {s : Bool} {k : Nat} (product : (finite negative m).mul (finite false n) = finite s k)
    : 0 ≤ signed s k := by
  have zero : nearest 0 one = 0 := by decide +kernel
  simp only [mul, ofUnits, Bool.bne_false] at product
  split at product
  · obtain ⟨rfl, rfl⟩ := finite.inj product
    refine signed_nonneg (h.imp_right fun e => ?_)
    rw [e, Nat.zero_mul, zero]
  · cases product

/-- A magnitude without a minus sign, or a zero, makes microseconds without one: whole seconds
and the fraction both do.
-/
theorem Seconds.microsecondsOf_nonneg {negative : Bool} {units : Nat}
    (h : negative = false ∨ units = 0)
    : 0 ≤ microsecondsOf negative units := by
  have whole : 0 ≤ Double.signed negative (units / Double.one * 1000000) :=
    Double.signed_nonneg (h.imp_right fun e => by rw [e, Nat.zero_div, Nat.zero_mul])
  obtain ⟨n, million⟩ : ∃ n, Double.ofInt 1000000 = .finite false n :=
    ⟨1000000 * Double.one, by decide +kernel⟩
  have fraction (s : Bool) (m : Nat)
      (product : (Double.finite negative (units % Double.one)).mul (Double.ofInt 1000000)
        = .finite s m)
      : 0 ≤ Double.signed s m := by
    rw [million] at product
    exact Double.mul_nonneg (h.imp_right fun e => by rw [e, Nat.zero_mod]) product
  -- the definition is opened as a function, since applied to a number it would be computed
  have opened (f : Bool → Nat → Int) (hf : f = microsecondsOf) : 0 ≤ f negative units := by
    delta microsecondsOf at hf
    subst hf
    dsimp only
    generalize (Double.finite negative (units % Double.one)).mul (Double.ofInt 1000000) = x
      at fraction ⊢
    cases x with
    | finite s m =>
        exact roundQuotientInt_nonneg _
          (Int.add_nonneg (Int.mul_nonneg whole (Int.natCast_nonneg _)) (fraction s m rfl))
    | nan | infinite s => exact Int.le_refl 0
  exact opened _ rfl

/-- A number of seconds that is at least zero makes a span of at least zero. -/
theorem Seconds.toMicroseconds_nonneg {x : Double} {span : Int}
    (nonneg : Double.zero.le x = true) (h : (Seconds.real x).toMicroseconds = .ok span)
    : 0 ≤ span := by
  cases x with
  | nan => cases h
  | infinite negative => cases h
  | finite negative units =>
      have sign : negative = false ∨ units = 0 := by
        cases negative with
        | false => exact .inl rfl
        | true =>
            refine .inr ?_
            simp only [Double.le, Double.zero, Double.position?, Double.signed] at nonneg
            have := of_decide_eq_true nonneg
            simp only [Bool.false_eq_true, if_false, if_true] at this
            omega
      have result : span = microsecondsOf negative units := by
        simp only [toMicroseconds, checked] at h
        split at h
        · cases h
        · split at h
          · cases h
          · exact (Except.ok.inj h).symm
      rw [result]
      exact microsecondsOf_nonneg sign

-----------------------------------------------------------------------------------------
-- Freshness
-----------------------------------------------------------------------------------------

namespace Ledger

/-- The server has a measurement of at least the given time. -/
def HasSince (l : Ledger) (server : Server) (time : Int) : Prop :=
  ∃ m, l.find? server = some m ∧ time ≤ m.time.microseconds

/-- Whether a measurement is fresh when the greatest age is a span. -/
theorem isFresh_eq (l : Ledger) (server : Server) (now : Instant) {maxAge : Seconds} {span : Int}
    (age : maxAge.toMicroseconds = .ok span)
    : ∃ fresh, l.isFresh server maxAge (.utc now) = .ok fresh
      ∧ (fresh = true ↔ l.HasSince server (now.microseconds - span)) := by
  unfold isFresh HasSince
  cases l.find? server with
  | none => exact ⟨false, rfl, by simp⟩
  | some m =>
      refine ⟨decide (now.microseconds - m.time.microseconds ≤ span), by simp [age], ?_⟩
      simp only [decide_eq_true_eq, Option.some.injEq, exists_eq_left']
      omega

/-- Recording makes the measurement of a server younger, if anything. -/
theorem HasSince.record {l : Ledger} {server : Server} {time : Int} (h : l.HasSince server time)
    (m : Measurement)
    : (l.record m).HasSince server time := by
  obtain ⟨old, hold, since⟩ := h
  by_cases same : server = m.server
  · subst same
    refine ⟨newer old m, by rw [find?_record, hold], ?_⟩
    unfold newer
    split <;> omega
  · exact ⟨old, by rw [find?_record_of_ne same, hold], since⟩

theorem hasSince_record (l : Ledger) (m : Measurement)
    : (l.record m).HasSince m.server m.time.microseconds := by
  refine ⟨_, find?_record l m, ?_⟩
  cases l.find? m.server with
  | none => exact Int.le_refl _
  | some old =>
      simp only [newer]
      split <;> omega

end Ledger

-----------------------------------------------------------------------------------------
-- A run
-----------------------------------------------------------------------------------------

namespace ProbePlan

variable {p : ProbePlan} {now : Instant} {span : Int}

/-- The stale servers are those without a measurement that is recent enough, by induction on
the servers.
-/
theorem stale_eq (now : Instant) (age : (Seconds.real p.maxAge).toMicroseconds = .ok span)
    (l : Ledger)
    (servers : List Server)
    : ∃ xs, p.stale l now servers = .ok xs
      ∧ ∀ s, s ∈ xs ↔ s ∈ servers ∧ ¬l.HasSince s (now.microseconds - span) := by
  induction servers with
  | nil => exact ⟨[], rfl, by simp⟩
  | cons server rest ih =>
      obtain ⟨xs, hxs, mem⟩ := ih
      obtain ⟨fresh, hfresh, since⟩ := l.isFresh_eq server now age
      refine ⟨if fresh then xs else server :: xs, by simp [stale, hfresh, hxs], fun s => ?_⟩
      cases fresh with
      | true =>
          have recent := since.1 rfl
          simp only [if_true, mem, List.mem_cons]
          constructor
          · rintro ⟨hs, old⟩
            exact ⟨.inr hs, old⟩
          · rintro ⟨rfl | hs, old⟩
            · exact absurd recent old
            · exact ⟨hs, old⟩
      | false =>
          have old : ¬l.HasSince server (now.microseconds - span) := fun h => by
            cases since.2 h
          simp only [Bool.false_eq_true, if_false, List.mem_cons, mem]
          constructor
          · rintro (rfl | ⟨hs, hold⟩)
            · exact ⟨.inl rfl, old⟩
            · exact ⟨.inr hs, hold⟩
          · rintro ⟨rfl | hs, hold⟩
            · exact .inl rfl
            · exact .inr ⟨hs, hold⟩

/-- The stale servers are in the order of all, by induction on the servers. -/
theorem stale_sublist {l : Ledger} {servers xs : List Server}
    (h : p.stale l now servers = .ok xs)
    : xs.Sublist servers := by
  induction servers generalizing xs with
  | nil => exact Except.ok.inj h ▸ .refl _
  | cons server rest ih =>
      simp only [stale] at h
      split at h
      · cases h
      · next fresh _ =>
        split at h
        · cases h
        · next more hmore =>
          rw [← Except.ok.inj h]
          cases fresh with
          | true => exact (ih hmore).cons server
          | false => exact (ih hmore).cons_cons server

theorem measureAll_hasSince {l : Ledger} {s : Server} {since : Int} (h : l.HasSince s since)
    (servers : List Server) (j : Journal)
    : (p.measureAll now servers l j).2.1.HasSince s since := by
  induction servers generalizing l j with
  | nil => exact h
  | cons server rest ih =>
      unfold measureAll
      split
      · exact ih h _
      · exact ih (h.record _) _

/-- If there is no fault, every measured server has a measurement of the time of the run, or a
younger one.
-/
theorem measureAll_measures {s : Server} {servers : List Server} (hs : s ∈ servers) (l : Ledger)
    (j : Journal) (faultless : (p.measureAll now servers l j).1 = none)
    : (p.measureAll now servers l j).2.1.HasSince s now.microseconds := by
  induction servers generalizing l j with
  | nil => cases hs
  | cons server rest ih =>
      unfold measureAll at faultless ⊢
      split at faultless
      · cases faultless
      · rcases List.mem_cons.1 hs with rfl | hs
        · exact measureAll_hasSince (Ledger.hasSince_record _ _) rest _
        · exact ih hs _ _ faultless

theorem mem_measureAll {servers : List Server} {l : Ledger} {j : Journal} {m : Measurement}
    (h : m ∈ (p.measureAll now servers l j).2.1.measurements)
    : m ∈ l.measurements ∨ m.server ∈ servers ∧ m.time = now := by
  induction servers generalizing l j with
  | nil => exact .inl h
  | cons server rest ih =>
      unfold measureAll at h
      split at h
      · exact (ih h).imp_right fun ⟨hs, htime⟩ => ⟨List.mem_cons_of_mem _ hs, htime⟩
      · rcases ih h with h | ⟨hs, htime⟩
        · rcases Ledger.mem_record h with h | rfl
          · exact .inl h
          · exact .inr ⟨List.mem_cons_self .., rfl⟩
        · exact .inr ⟨List.mem_cons_of_mem _ hs, htime⟩

/-- With a payload that fits, servers are measured without a fault, by induction on them. -/
theorem measureAll_of_fits (now : Instant) (fits : p.manner.Fits) (servers : List Server)
    (l : Ledger)
    (j : Journal)
    : (p.measureAll now servers l j).1 = none := by
  induction servers generalizing l j with
  | nil => rfl
  | cons server rest ih =>
      obtain ⟨latency, measured⟩ := measure_of_fits fits server j
      unfold measureAll
      split
      · next h =>
        rw [h] at measured
        cases measured
      · exact ih _ _

/-- With a payload that does not fit, no server is measured. -/
theorem measureAll_of_not_fits (now : Instant) (misfit : ¬p.manner.Fits)
    (tries : 0 < p.attempts)
    {servers : List Server} (some_ : servers ≠ []) (l : Ledger) (j : Journal)
    : (p.measureAll now servers l j).1 = some ⟨p.manner.payload⟩ := by
  cases servers with
  | nil => exact absurd rfl some_
  | cons server rest => simp only [measureAll, measure_of_not_fits misfit tries]

/-- The servers that are due: all wanted ones if that is forced, or else those without a
measurement that is recent enough.
-/
theorem due_eq {d : Zone.Directory} {servers : List Server}
    (wanted : d.servers p.families = .ok servers) (now : Instant)
    (age : (Seconds.real p.maxAge).toMicroseconds = .ok span) (force : Bool) (l : Ledger)
    : ∃ xs, p.due d l now force = .ok xs
      ∧ ∀ s, s ∈ xs
        ↔ s ∈ servers ∧ (force = true ∨ ¬l.HasSince s (now.microseconds - span)) := by
  obtain ⟨xs, hxs, mem⟩ := stale_eq now age l servers
  cases force with
  | true => exact ⟨servers, by simp [due, wanted], by simp⟩
  | false => exact ⟨xs, by simp [due, wanted, hxs], by simpa using mem⟩

/-- The servers that are due are in the order of the wanted ones. -/
theorem due_sublist {d : Zone.Directory} {l : Ledger} {force : Bool} {servers xs : List Server}
    (wanted : d.servers p.families = .ok servers) (h : p.due d l now force = .ok xs)
    : xs.Sublist servers := by
  simp only [due, wanted] at h
  split at h
  · exact Except.ok.inj h ▸ .refl _
  · split at h
    · cases h
    · next stale hstale => exact Except.ok.inj h ▸ stale_sublist hstale

/-- What a run leaves behind: every wanted server with a fresh measurement, those that were
there before no older, and nothing but new measurements of wanted servers besides.
-/
structure Leaves (servers : List Server) (now : Instant) (span : Int) (before after_ : Ledger)
    : Prop where
  fresh : ∀ s ∈ servers, after_.HasSince s (now.microseconds - span)
  kept : ∀ s since, before.HasSince s since → after_.HasSince s since
  added
    : ∀ m ∈ after_.measurements, m ∈ before.measurements ∨ m.server ∈ servers ∧ m.time = now

/-- A run of a plan whose payload fits succeeds. -/
theorem run_of_fits {d : Zone.Directory} {l : Ledger} {force : Bool} {due : List Server}
    (fits : p.manner.Fits) (hdue : p.due d l now force = .ok due) (j : Journal)
    : ∃ l' j', p.run d now force l j = (.ok due.length, l', j') := by
  unfold run
  rw [hdue]
  cases due with
  | nil => exact ⟨l, j, rfl⟩
  | cons first rest =>
      dsimp only
      split
      · next h =>
        have := measureAll_of_fits now fits (first :: rest) l
          (j.add (.workers (min p.workers (first :: rest).length)))
        rw [h] at this
        cases this
      · exact ⟨_, _, rfl⟩

/-- After a run that succeeds all wanted servers are fresh. -/
theorem run_leaves {d : Zone.Directory} {servers : List Server}
    (wanted : d.servers p.families = .ok servers)
    (age : (Seconds.real p.maxAge).toMicroseconds = .ok span) (nonneg : 0 ≤ span)
    {force : Bool} {l l' : Ledger} {j j' : Journal} {n : Nat}
    (hrun : p.run d now force l j = (.ok n, l', j'))
    : Leaves servers now span l l' := by
  obtain ⟨xs, hxs, mem⟩ := due_eq wanted now age force l
  have others {s : Server} (hs : s ∈ servers) (not_due : s ∉ xs)
      : l.HasSince s (now.microseconds - span) := by
    by_contra old
    exact not_due ((mem s).2 ⟨hs, .inr old⟩)
  unfold run at hrun
  rw [hxs] at hrun
  cases xs with
  | nil =>
      cases hrun
      exact ⟨fun s hs => others hs List.not_mem_nil, fun _ _ h => h, fun m hm => .inl hm⟩
  | cons first rest =>
      dsimp only at hrun
      generalize j.add (.workers (min p.workers (first :: rest).length)) = started at hrun
      rcases hall : p.measureAll now (first :: rest) l started with ⟨fault | fault, after⟩
      all_goals
        rw [hall] at hrun
        cases hrun
      have faultless : (p.measureAll now (first :: rest) l started).1 = none := by rw [hall]
      have ledger : (p.measureAll now (first :: rest) l started).2.1 = l' := by rw [hall]
      refine ⟨fun s hs => ?_, fun s since h => ledger ▸ measureAll_hasSince h _ _,
        fun m hm => ?_⟩
      · by_cases is_due : s ∈ first :: rest
        · obtain ⟨m, hm, recent⟩ := measureAll_measures is_due l started faultless
          exact ⟨m, ledger ▸ hm, by omega⟩
        · exact ledger ▸ measureAll_hasSince (others hs is_due) _ _
      · rcases mem_measureAll (ledger.symm ▸ hm) with h | ⟨hs, htime⟩
        · exact .inl h
        · exact .inr ⟨((mem _).1 hs).1, htime⟩

/-- A run has nothing to do exactly if all wanted servers are fresh. -/
theorem run_rests_iff {d : Zone.Directory} {servers : List Server}
    (wanted : d.servers p.families = .ok servers)
    (age : (Seconds.real p.maxAge).toMicroseconds = .ok span) (l : Ledger) (j : Journal)
    : p.run d now false l j = (.ok 0, l, j)
      ↔ ∀ s ∈ servers, l.HasSince s (now.microseconds - span) := by
  obtain ⟨xs, hxs, mem⟩ := due_eq wanted now age false l
  have rests : p.run d now false l j = (.ok 0, l, j) ↔ xs = [] := by
    unfold run
    rw [hxs]
    cases xs with
    | nil => simp
    | cons first rest =>
        dsimp only
        split <;> simp
  rw [rests, List.eq_nil_iff_forall_not_mem]
  constructor
  · intro none s hs
    by_contra old
    exact none s ((mem s).2 ⟨hs, .inr old⟩)
  · intro fresh s hs
    obtain ⟨wanted, not_forced | old⟩ := (mem s).1 hs
    · cases not_forced
    · exact old (fresh s wanted)

end ProbePlan

end NameserverAudit
