import NameserverAudit.Proofs.Latency.RoundTrip

/-! The table of latencies. It is sorted by the latencies that it shows, which are rounded, and a
listing by those that were measured. Main statement: the table of a ledger has its entries as they
are written; if they are rounded already it has them in the order of the listing, and in any case
its order does not depend on the order in which they are given.
-/

namespace NameserverAudit

-----------------------------------------------------------------------------------------
-- What a table shows of a measurement
-----------------------------------------------------------------------------------------

namespace Measurement

/-- The measurement as a table shows it: with its latency rounded, and with none if it is
undefined.
-/
def asShown (m : Measurement) : Measurement :=
  ⟨m.server, m.writtenLatency.filter fun x => !x.isNaN, m.time⟩

/-- The latency, if there is one, is a number with at most three decimal places. -/
def IsRounded (m : Measurement) : Prop :=
  ∀ x ∈ m.latency, x.same (x.roundPlaces 3) = true

instance (m : Measurement) : Decidable m.IsRounded :=
  inferInstanceAs (Decidable (∀ x ∈ m.latency, _))

variable {m n : Measurement}

theorem isDefined_asShown (m : Measurement) : m.asShown.IsDefined := by
  intro h
  obtain ⟨-, number⟩ := Option.filter_eq_some_iff.1 h
  exact absurd number (by decide)

/-- A table shows a defined measurement as it is written. -/
theorem asShown_of_isDefined (h : m.IsDefined) : m.asShown = m.asWritten := by
  have kept : m.writtenLatency.filter (fun x => !x.isNaN) = m.writtenLatency := by
    match hx : m.writtenLatency with
    | some .nan => exact absurd hx h.asWritten
    | none | some (.infinite _) | some (.finite _ _) => rfl
  rw [asShown, kept]
  rfl

theorem IsRounded.isDefined (h : m.IsRounded) : m.IsDefined :=
  fun nan => absurd (h .nan nan) (by decide)

/-- Rounding leaves a rounded measurement in its place. -/
theorem IsRounded.rank_asShown (h : m.IsRounded) : m.asShown.rank = m.rank := by
  rw [asShown_of_isDefined h.isDefined]
  cases hlatency : m.latency with
  | none => simp [rank, asWritten, writtenLatency, hlatency]
  | some x =>
      obtain ⟨p, hp, kept⟩ := Double.same_iff.1 (h x hlatency)
      simp [rank, asWritten, writtenLatency, hlatency, hp, kept]

/-- Measurements as a ledger is written are rounded if they are defined: rounding them once more
changes nothing.
-/
theorem isRounded_of_written {x : Option Double} (h : m.IsDefined)
    (written : m.latency = x.map (·.roundPlaces 3))
    : m.IsRounded := by
  intro y hy
  obtain ⟨x, rfl, rfl⟩ := Option.map_eq_some_iff.1 (written.symm.trans hy)
  obtain ⟨p, hp⟩ := position?_of_defined (x := x.roundPlaces 3) (hy ▸ h)
  refine Double.same_iff.2 ⟨p, hp, ?_⟩
  rw [Double.roundPlaces_roundPlaces (show 3 ≤ 22 by decide), hp]

/-- What is read of a measurement that was written has the latency that was written. -/
theorem latency_of_ofJson_toJson (h : ofJson m.toJson = .ok n)
    : n.latency = m.writtenLatency := by
  have measured := m.entryLatency_toJson
  unfold toJson at measured h
  simp only [ofJson, measured, Bind.bind, Except.bind, Pure.pure, Except.pure] at h
  split at h
  · cases h
  · split at h
    · cases h
    · rw [← Except.ok.inj h]

end Measurement

-----------------------------------------------------------------------------------------
-- The rows of a table
-----------------------------------------------------------------------------------------

namespace LatencyRow

/-- A row as an object, with its cells under the names of their columns. -/
def toJson (r : LatencyRow) : Json :=
  .object [
    ("server_name", .str r.name),
    ("address", .str r.address),
    ("latency_ms",
      match r.latency with
      | none => .null
      | some x => .float x),
    ("measured_at", .str r.time)]

theorem toJson_ofMeasurement {m : Measurement} (h : m.IsDefined)
    : (ofMeasurement m).toJson = m.toJson := by
  have shown : (ofMeasurement m).latency = m.writtenLatency :=
    congrArg Measurement.latency (Measurement.asShown_of_isDefined h)
  simp only [toJson, shown]
  rfl

/-- Rows come in the order in which a listing has the measurements that they show: latencies that
are equal are not smaller, so either comparison may come first.
-/
theorem before_ofMeasurement (m n : Measurement)
    : (ofMeasurement m).before (ofMeasurement n)
      = Ledger.listedBefore m.asShown n.asShown := by
  have rows (a b : Measurement)
      : before ⟨a.server.name, a.server.address, a.latency, a.time.text⟩
          ⟨b.server.name, b.server.address, b.latency, b.time.text⟩
        = Ledger.listedBefore a b := by
    obtain ⟨server, latency, time⟩ := a
    obtain ⟨server', latency', time'⟩ := b
    cases latency with
    | none => cases latency' <;> rfl
    | some x =>
        cases latency' with
        | none => rfl
        | some y =>
            show (x.lt y || x.same y && server.before server')
              = if x.same y = true then server.before server' else x.lt y
            by_cases same : x.same y = true
            · obtain ⟨p, hx, hy⟩ := Double.same_iff.1 same
              have not_less : x.lt y = false := by simp [Double.lt, hx, hy]
              rw [if_pos same, not_less, same, Bool.false_or, Bool.true_and]
            · rw [if_neg same, Bool.eq_false_iff.2 same, Bool.false_and, Bool.or_false]
  exact rows m.asShown n.asShown

/-- A table is sorted by the ranks of the measurements that it shows. -/
theorem table_eq (ms : List Measurement)
    : table ms
      = (ms.mergeSort fun m n => decide (m.asShown.rank ≤ n.asShown.rank)).map
          ofMeasurement := by
  refine (List.map_mergeSort fun m _ n _ => ?_).symm
  rw [Bool.eq_iff_iff, Bool.not_eq_true', ← Bool.not_eq_true, before_ofMeasurement,
    Measurement.listedBefore_iff n.isDefined_asShown m.isDefined_asShown, decide_eq_true_eq,
    not_lt]

/-- The table of entries of a ledger does not depend on their order, since no two of them have one
server.
-/
theorem table_eq_of_perm {l : Ledger} {entries : List Measurement}
    (perm : entries.Perm l.listing)
    : table entries = table l.listing := by
  have apart : ∀ m ∈ l.listing, ∀ n ∈ l.listing,
      m.asShown.rank = n.asShown.rank → m = n := by
    intro m hm n hn same
    have server : m.server = n.server := by
      have places := congrArg (fun r => (ofLex (ofLex (ofLex r).2).2)) same
      exact Server.mk.injEq .. ▸ Prod.mk.inj places
    exact List.inj_on_of_nodup_map l.distinct (l.listing_perm.mem_iff.1 hm)
      (l.listing_perm.mem_iff.1 hn) server
  rw [table_eq, table_eq, mergeSort_eq_of_perm (fun _ _ _ _ => rfl) apart perm]

/-- Entries that are rounded already are in the order of the listing. -/
theorem table_listing {l : Ledger} (rounded : ∀ m ∈ l.measurements, m.IsRounded)
    : table l.listing = l.listing.map ofMeasurement := by
  have sorted := Ledger.pairwise_listing fun m hm => (rounded m hm).isDefined
  rw [table_eq, List.mergeSort_of_pairwise]
  refine sorted.imp_of_mem fun {m n} hm hn listed => ?_
  have hm := rounded m (l.listing_perm.mem_iff.1 hm)
  have hn := rounded n (l.listing_perm.mem_iff.1 hn)
  rw [Bool.not_eq_true', ← Bool.not_eq_true,
    Measurement.listedBefore_iff hn.isDefined hm.isDefined, not_lt] at listed
  rw [hm.rank_asShown, hn.rank_asShown]
  exact decide_eq_true listed

end LatencyRow

-----------------------------------------------------------------------------------------
-- Ledgers that were saved
-----------------------------------------------------------------------------------------

namespace Ledger

/-- Measurements that are read of those that were written have their written latencies, by
induction on the measurements.
-/
theorem latency_of_measurementsOf {ms xs : List Measurement}
    (h : measurementsOf (ms.map Measurement.toJson) = .ok xs)
    : ∀ n ∈ xs, ∃ m : Measurement, n.latency = m.writtenLatency := by
  induction ms generalizing xs with
  | nil =>
      rw [← Except.ok.inj h]
      simp
  | cons first rest ih =>
      simp only [List.map_cons, measurementsOf, Bind.bind, Except.bind, Pure.pure,
        Except.pure] at h
      split at h
      · cases h
      · next k hk =>
        split at h
        · cases h
        · next more hmore =>
          intro n hn
          rw [← Except.ok.inj h] at hn
          rcases List.mem_cons.1 hn with rfl | hn
          · exact ⟨first, Measurement.latency_of_ofJson_toJson hk⟩
          · exact ih hmore n hn

/-- A ledger that is read of a saved one has written latencies. -/
theorem latency_of_saved {l saved : Ledger} {source : String}
    (h : ofText source saved.text = .ok l)
    : ∀ m ∈ l.measurements, ∃ n : Measurement, m.latency = n.writtenLatency := by
  rw [ofText_text_eq] at h
  simp only [toJson, ofJson] at h
  split at h
  · cases h
  · next xs hxs =>
    intro m hm
    rw [← Except.ok.inj h] at hm
    exact latency_of_measurementsOf hxs m (mem_of_mem_ofList hm)

end Ledger

/-- The table of latencies shows the order of the ledger. Where all latencies are rounded, as they
are in a ledger without undefined ones that was read of a saved one, the rows of the table are the
entries of the listing, as they are written and in their order. And whether they are rounded or
not, the table does not depend on the order in which the entries are given.
-/
theorem LatencyRow.table_shows_listing (l : Ledger)
    : ((∀ m ∈ l.measurements, m.IsRounded) →
        (table l.listing).map toJson = l.listing.map Measurement.toJson)
      ∧ ((∀ m ∈ l.measurements, m.IsDefined) →
          (∃ source saved, Ledger.ofText source (Ledger.text saved) = .ok l) →
          ∀ m ∈ l.measurements, m.IsRounded)
      ∧ ∀ entries, entries.Perm l.listing → table entries = table l.listing := by
  refine ⟨fun rounded => ?_, fun defined saved m hm => ?_, fun _ => table_eq_of_perm⟩
  · rw [table_listing rounded, List.map_map]
    refine List.map_congr_left fun m hm => ?_
    exact toJson_ofMeasurement (rounded m (l.listing_perm.mem_iff.1 hm)).isDefined
  · obtain ⟨source, saved, read⟩ := saved
    obtain ⟨n, written⟩ := Ledger.latency_of_saved read m hm
    exact Measurement.isRounded_of_written (defined m hm) written

/-- Witness: two latencies that are rounded to one are read back in order by name, and the table
shows them so, however the entries are given.
-/
theorem LatencyRow.closeLedger_table_shows_listing
    : ∃ l, Ledger.ofText "cache.json" Ledger.closeLedger.text = .ok l
      ∧ l.measurements.length = 3
      ∧ (∀ m ∈ l.measurements, m.IsRounded)
      ∧ (table l.listing).map toJson = l.listing.map Measurement.toJson
      ∧ table l.measurements.reverse = table l.listing := by
  obtain ⟨l, read, written⟩ := Ledger.closeLedger_savable.read "cache.json"
  have defined := (Ledger.closeLedger_savable.of_written written).defined
  obtain ⟨shows_listing, saved_rounded, any_order⟩ := table_shows_listing l
  have rounded := saved_rounded defined ⟨_, _, read⟩
  refine ⟨l, read, ?_, rounded, shows_listing rounded, any_order _ ?_⟩
  · rw [written, List.length_map, Ledger.closeLedger.listing_perm.length_eq]
    decide +kernel
  · exact (List.reverse_perm _).trans l.listing_perm.symm

end NameserverAudit
