import NameserverAudit.Auditor
import NameserverAudit.Proofs.Number.Rounding

/-!
Which faults of a ledger's text are foreseen. Reading stops at the first entry that is no
measurement. Nearly every fault is one that a run reports; what it does not foresee is an
integer with too many digits, a latency that is an integer beyond the range of numbers, and a
time that lies outside the years of the calendar once it is taken to universal time. Main
statement: reading a text has only foreseen faults exactly if the text has none of the three.
-/

namespace NameserverAudit

-----------------------------------------------------------------------------------------
-- One entry
-----------------------------------------------------------------------------------------

namespace Measurement

/-- The entry names a server, and one of its numbers is beyond a range that is not checked: its
latency is an integer that no finite number is nearest to, or its latency can be read and its
time lies outside the years 1 to 9999.
-/
inductive OutOfBounds (entry : Json) : Prop
  | latency {server : Server} {n : Int} (named : serverOf entry = .ok server)
    (given : entry.field? "latency_ms" = some (.int n))
    (beyond : Double.integerLimit ≤ n.natAbs)
    : OutOfBounds entry
  | time {server : Server} {latency : Option Double} {text : String} {t : Timestamp}
    (named : serverOf entry = .ok server) (measured : entryLatency entry = .ok latency)
    (given : fieldText entry "measured_at" = .ok text) (read : Iso.parse text = .ok t)
    (beyond : t.instant? = none)
    : OutOfBounds entry

/-- The faults of an entry that a run does not foresee. -/
def unforeseen : EntryFault → Prop
  | .latencyTooLarge | .timeOutOfRange => True
  | _ => False

theorem isForeseen_entry (fault : EntryFault)
    : (RunFault.ledger (.entry fault)).isForeseen = false ↔ unforeseen fault := by
  cases fault <;> simp [RunFault.isForeseen, unforeseen]

theorem fieldText_foreseen {entry : Json} {key : String} {fault : EntryFault}
    (h : fieldText entry key = .error fault)
    : ¬unforeseen fault := by
  unfold fieldText at h
  split at h
  · obtain rfl : EntryFault.missing key = fault := by simpa using h
    exact id
  · cases h

theorem serverOf_foreseen {entry : Json} {fault : EntryFault}
    (h : serverOf entry = .error fault)
    : ¬unforeseen fault := by
  unfold serverOf at h
  cases hname : fieldText entry "server_name" with
  | error f =>
      obtain rfl : f = fault := by simpa [hname, Bind.bind, Except.bind] using h
      exact fieldText_foreseen hname
  | ok name =>
      cases haddress : fieldText entry "address" with
      | error f =>
          obtain rfl : f = fault := by simpa [hname, haddress, Bind.bind, Except.bind] using h
          exact fieldText_foreseen haddress
      | ok address =>
          simp only [hname, haddress, Bind.bind, Except.bind] at h
          split at h
          · next refusal _ =>
            obtain rfl : EntryFault.invalid entry.display (.address refusal) = fault := by
              simpa using h
            exact id
          · cases h

/-- The one unforeseen fault of a latency is an integer that is too large. -/
theorem entryLatency_unforeseen_iff {entry : Json}
    : (∃ fault, entryLatency entry = .error fault ∧ unforeseen fault)
      ↔ ∃ n, entry.field? "latency_ms" = some (.int n) ∧ Double.integerLimit ≤ n.natAbs := by
  have tooLarge_iff (v : Json)
      : latencyOf v = .error .tooLarge ↔ ∃ n, v = .int n ∧ Double.integerLimit ≤ n.natAbs := by
    cases v with
    | int n =>
        have finite_iff := Double.isFinite_ofInt n
        by_cases small : n.natAbs < Double.integerLimit
        · simp only [latencyOf, finite_iff.2 small, if_true, reduceCtorEq, Json.int.injEq,
            false_iff]
          rintro ⟨m, rfl, large⟩
          omega
        · have infinite : ¬(Double.ofInt n).isFinite = true := fun h => small (finite_iff.1 h)
          simp only [latencyOf, infinite, Bool.false_eq_true, if_false, Json.int.injEq,
            true_iff]
          exact ⟨n, rfl, Nat.le_of_not_lt small⟩
    | str s => simp only [latencyOf]; split <;> simp
    | null | bool _ | float _ | array _ | object _ => simp [latencyOf]
  have unforeseen_iff
      : (∃ fault, entryLatency entry = .error fault ∧ unforeseen fault)
        ↔ latencyOf ((entry.field? "latency_ms").getD .null) = .error .tooLarge := by
    unfold entryLatency
    split
    · next h => simp [h]
    · next h => simp [h, unforeseen]
    · next fault other h =>
      simp only [h, Except.error.injEq, exists_eq_left', unforeseen, false_iff]
      exact other
  rw [unforeseen_iff, tooLarge_iff]
  cases entry.field? "latency_ms" <;> simp

/-- The one unforeseen fault of a time is that it lies outside the years of the calendar. -/
theorem entryTime_unforeseen_iff {entry : Json}
    : (∃ fault, entryTime entry = .error fault ∧ unforeseen fault)
      ↔ ∃ text t, fieldText entry "measured_at" = .ok text ∧ Iso.parse text = .ok t
        ∧ t.instant? = none := by
  unfold entryTime
  cases htext : fieldText entry "measured_at" with
  | error f =>
      have := fieldText_foreseen htext
      simp [Bind.bind, Except.bind, this]
  | ok text =>
      simp only [Bind.bind, Except.bind, Except.ok.injEq, exists_and_left, exists_eq_left']
      cases hread : Iso.parse text with
      | error f => simp [unforeseen]
      | ok t =>
          cases range : t.instant? <;> simp [range, unforeseen]

/-- An entry has an unforeseen fault exactly if one of its numbers is out of bounds. The fields
are read in order: the server, the latency, the time.
-/
theorem ofJson_unforeseen_iff (entry : Json)
    : (∃ fault, ofJson entry = .error fault ∧ unforeseen fault) ↔ OutOfBounds entry := by
  have named_object {server : Server} (named : serverOf entry = .ok server)
      : ∃ fields, entry = .object fields := by
    cases entry with
    | object fields => exact ⟨fields, rfl⟩
    | _ => cases named
  constructor
  · rintro ⟨fault, hread, hfault⟩
    unfold ofJson at hread
    split at hread
    · next fields =>
      cases named : serverOf (.object fields) with
      | error f =>
          obtain rfl : f = fault := by simpa [named, Bind.bind, Except.bind] using hread
          exact absurd hfault (serverOf_foreseen named)
      | ok server =>
          cases measured : entryLatency (.object fields) with
          | error f =>
              obtain rfl : f = fault := by
                simpa [named, measured, Bind.bind, Except.bind] using hread
              obtain ⟨n, given, beyond⟩ :=
                entryLatency_unforeseen_iff.1 ⟨f, measured, hfault⟩
              exact .latency named given beyond
          | ok latency =>
              cases timed : entryTime (.object fields) with
              | error f =>
                  obtain rfl : f = fault := by
                    simpa [named, measured, timed, Bind.bind, Except.bind] using hread
                  obtain ⟨text, t, given, read, beyond⟩ :=
                    entryTime_unforeseen_iff.1 ⟨f, timed, hfault⟩
                  exact .time named measured given read beyond
              | ok t => simp [named, measured, timed, Bind.bind, Except.bind, Pure.pure,
                  Except.pure] at hread
    · obtain rfl : EntryFault.notAnObject _ = fault := by simpa using hread
      exact hfault.elim
  · rintro (⟨named, given, beyond⟩ | ⟨named, measured, given, read, beyond⟩)
    · obtain ⟨fields, rfl⟩ := named_object named
      obtain ⟨fault, failed, hfault⟩ := entryLatency_unforeseen_iff.2 ⟨_, given, beyond⟩
      exact ⟨fault, by simp [ofJson, named, failed, Bind.bind, Except.bind], hfault⟩
    · obtain ⟨fields, rfl⟩ := named_object named
      obtain ⟨fault, failed, hfault⟩ := entryTime_unforeseen_iff.2 ⟨_, _, given, read, beyond⟩
      exact ⟨fault, by simp [ofJson, named, measured, failed, Bind.bind, Except.bind], hfault⟩

example
    : OutOfBounds (.object [("server_name", .str "a.root"), ("address", .str "192.0.2.1"),
        ("latency_ms", .int (10 ^ 309))]) :=
  .latency (show serverOf _ = .ok ⟨"a.root.", "192.0.2.1"⟩ by decide +kernel) rfl
    (by decide +kernel)

end Measurement

-----------------------------------------------------------------------------------------
-- A whole text
-----------------------------------------------------------------------------------------

namespace Ledger

/-- The first entry that cannot be read is out of bounds. -/
def StopsOutOfBounds (entries : List Json) : Prop :=
  ∃ front entry rest ms,
    entries = front ++ entry :: rest
    ∧ measurementsOf front = .ok ms
    ∧ Measurement.OutOfBounds entry

/-- The fault of a list of entries is that of the first entry that cannot be read, by induction
on the list.
-/
theorem measurementsOf_unforeseen_iff {entries : List Json}
    : (∃ fault, measurementsOf entries = .error fault ∧ Measurement.unforeseen fault)
      ↔ StopsOutOfBounds entries := by
  induction entries with
  | nil => simp [measurementsOf, StopsOutOfBounds]
  | cons first rest ih =>
      cases hfirst : Measurement.ofJson first with
      | error f =>
          have outOfBounds_iff := Measurement.ofJson_unforeseen_iff first
          simp only [measurementsOf, hfirst, Bind.bind, Except.bind, Except.error.injEq,
            exists_eq_left'] at outOfBounds_iff ⊢
          rw [outOfBounds_iff]
          constructor
          · exact fun h => ⟨[], first, rest, [], rfl, rfl, h⟩
          · rintro ⟨front, entry, back, ms, hsplit, hfront, h⟩
            cases front with
            | nil =>
                obtain ⟨rfl, rfl⟩ : first = entry ∧ rest = back := by simpa using hsplit
                exact h
            | cons x more =>
                obtain ⟨rfl, -⟩ : first = x ∧ rest = more ++ entry :: back := by
                  simpa using hsplit
                simp [measurementsOf, hfirst, Bind.bind, Except.bind] at hfront
      | ok m =>
          have read : (∃ fault, measurementsOf (first :: rest) = .error fault
                ∧ Measurement.unforeseen fault)
              ↔ ∃ fault, measurementsOf rest = .error fault ∧ Measurement.unforeseen fault := by
            simp only [measurementsOf, hfirst, Bind.bind, Except.bind]
            cases measurementsOf rest <;> simp [Pure.pure, Except.pure]
          rw [read, ih]
          constructor
          · rintro ⟨front, entry, back, ms, rfl, hfront, h⟩
            refine ⟨first :: front, entry, back, m :: ms, rfl, ?_, h⟩
            simp [measurementsOf, hfirst, hfront, Bind.bind, Except.bind, Pure.pure, Except.pure]
          · rintro ⟨front, entry, back, ms, hsplit, hfront, h⟩
            cases front with
            | nil =>
                obtain ⟨rfl, rfl⟩ : first = entry ∧ rest = back := by simpa using hsplit
                obtain ⟨fault, failed, -⟩ := (Measurement.ofJson_unforeseen_iff _).2 h
                rw [hfirst] at failed
                cases failed
            | cons x more =>
                obtain ⟨rfl, rfl⟩ : first = x ∧ rest = more ++ entry :: back := by
                  simpa using hsplit
                cases hmore : measurementsOf more with
                | error f =>
                    simp [measurementsOf, hfirst, hmore, Bind.bind, Except.bind] at hfront
                | ok ms => exact ⟨more, entry, back, ms, rfl, hmore, h⟩

/-- Reading a text as a ledger has only faults that a run foresees and reports, exactly if the
text has no integer of too many digits on the way and its entries do not stop at one with an
integer latency beyond the range of numbers, or with a time that universal time takes out of the
years 1 to 9999.
-/
theorem ofText_foreseen_iff {source text : String}
    : (∀ fault, ofText source text = .error fault → (RunFault.ledger fault).isForeseen = true)
      ↔ (∀ digits, Json.parse text ≠ .error (.integerTooLong digits))
        ∧ ∀ entries, Json.parse text = .ok (.array entries) → ¬StopsOutOfBounds entries := by
  unfold ofText
  split
  · next digits parsed => simp [parsed, RunFault.isForeseen]
  · next fault other parsed =>
    simp only [parsed, Except.error.injEq, forall_eq', RunFault.isForeseen, reduceCtorEq,
      false_implies, implies_true, and_true, true_iff]
    exact fun digits e => other digits (by simpa using e)
  · next v parsed =>
    simp only [parsed, Except.ok.injEq, ne_eq, reduceCtorEq, not_false_eq_true, implies_true,
      true_and]
    have array_iff (entries : List Json)
        : (∀ fault, ofJson source (.array entries) = .error fault
            → (RunFault.ledger fault).isForeseen = true)
          ↔ ¬StopsOutOfBounds entries := by
      rw [← measurementsOf_unforeseen_iff]
      simp only [ofJson]
      cases measurementsOf entries with
      | error f =>
          have := Measurement.isForeseen_entry f
          simp [← this]
      | ok ms => simp
    cases v with
    | array entries => simpa using array_iff entries
    | _ => simp [ofJson, RunFault.isForeseen]

/-- A ledger whose only time is the first hour of year 1 in a zone that is an hour ahead. -/
def earlyText : String :=
  "[\x7b\"server_name\": \"a.root\", \"address\": \"192.0.2.1\", \"latency_ms\": null, "
    ++ "\"measured_at\": \"0001-01-01T00:00:00+01:00\"\x7d]"

/-- The text is a well-formed list of entries, and reading it has a fault that a run does not
foresee.
-/
theorem earlyText_unforeseen
    : ofText "cache.json" earlyText = .error (.entry .timeOutOfRange)
      ∧ (RunFault.ledger (.entry .timeOutOfRange)).isForeseen = false := by
  refine ⟨?_, rfl⟩
  decide +kernel

end Ledger

end NameserverAudit
