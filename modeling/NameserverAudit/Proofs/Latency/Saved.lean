import NameserverAudit.Proofs.Json.RoundTrip
import NameserverAudit.Proofs.Latency.Lookup
import NameserverAudit.Proofs.Time.RoundTrip

/-!
What is read back of a saved ledger. A measurement is written with its latency rounded, and it
is read back as it was written, under the canonical form of its server.
-/

namespace NameserverAudit

-----------------------------------------------------------------------------------------
-- One measurement
-----------------------------------------------------------------------------------------

namespace Measurement

theorem toJson_printable (m : Measurement) : m.toJson.Printable := by
  have names : ["server_name", "address", "latency_ms", "measured_at"].Nodup := by decide
  refine ⟨names, trivial, trivial, ?_, trivial, trivial⟩
  cases hlatency : m.latency with
  | none => simp [writtenLatency, hlatency, Json.Printable]
  | some x => simpa [writtenLatency, hlatency, Json.Printable] using Double.proper_roundPlaces 3 x

/-- The latency that is written is the one that is read. -/
theorem entryLatency_toJson (m : Measurement) : entryLatency m.toJson = .ok m.writtenLatency := by
  cases hlatency : m.writtenLatency <;>
    simp [entryLatency, toJson, Json.field?, Json.lookup, hlatency, latencyOf]

/-- What is written of a measurement is read back, under the canonical form of the server. -/
theorem ofJson_toJson {m : Measurement} {address : String}
    (literal : canonicalAddress m.server.address = .ok address)
    : ofJson m.toJson
      = .ok ⟨⟨canonicalName m.server.name, address⟩, m.writtenLatency, m.time⟩ := by
  have named : serverOf m.toJson = .ok ⟨canonicalName m.server.name, address⟩ := by
    simp [serverOf, toJson, fieldText, Json.field?, Json.lookup, Json.asText, literal,
      Bind.bind, Except.bind]
  have measured := m.entryLatency_toJson
  have timed : entryTime m.toJson = .ok m.time := by
    simp [entryTime, toJson, fieldText, Json.field?, Json.lookup, Json.asText,
      Iso.parse_text, Bind.bind, Except.bind]
  unfold toJson at named measured timed ⊢
  simp only [ofJson, named, measured, timed, Bind.bind, Except.bind, Pure.pure, Except.pure]

end Measurement

-----------------------------------------------------------------------------------------
-- A ledger
-----------------------------------------------------------------------------------------

namespace Ledger

theorem measurementsOf_map {ms : List Measurement} {f : Measurement → Measurement}
    (h : ∀ m ∈ ms, Measurement.ofJson m.toJson = .ok (f m))
    : measurementsOf (ms.map Measurement.toJson) = .ok (ms.map f) := by
  induction ms with
  | nil => rfl
  | cons m rest ih =>
      have first := h m (List.mem_cons_self ..)
      have more := ih fun n hn => h n (List.mem_cons_of_mem _ hn)
      simp only [List.map_cons, measurementsOf, first, more, Bind.bind, Except.bind, Pure.pure,
        Except.pure]

theorem toJson_printable (l : Ledger) : l.toJson.Printable := by
  refine Json.itemsPrintable_iff.2 fun v hv => ?_
  obtain ⟨m, -, rfl⟩ := List.mem_map.1 hv
  exact m.toJson_printable

/-- The text of a ledger is read as the entries that were written. -/
theorem ofText_text_eq (l : Ledger) (source : String)
    : ofText source l.text = ofJson source l.toJson := by
  rw [ofText, text, Json.parse_render l.toJson_printable]

/-- A saved ledger is read back as the ledger of its measurements, each as it is read back. -/
theorem ofText_text {l : Ledger} {f : Measurement → Measurement} (source : String)
    (h : ∀ m ∈ l.measurements, Measurement.ofJson m.toJson = .ok (f m))
    : ofText source l.text = .ok (ofList (l.listing.map f)) := by
  have read : measurementsOf (l.listing.map Measurement.toJson) = .ok (l.listing.map f) :=
    measurementsOf_map fun m hm => h m (l.listing_perm.mem_iff.1 hm)
  rw [ofText_text_eq]
  simp only [toJson, ofJson, read]

/-- A list with one measurement of each server is the ledger that is made of it, by induction
on the list.
-/
theorem measurements_ofList {xs : List Measurement} (distinct : (xs.map (·.server)).Nodup)
    : (ofList xs).measurements = xs := by
  have append {m : Measurement} {xs : List Measurement} (h : m.server ∉ xs.map (·.server))
      : recordIn m xs = xs ++ [m] := by
    induction xs with
    | nil => rfl
    | cons x rest ih =>
        obtain ⟨hne, hrest⟩ : ¬m.server = x.server ∧ m.server ∉ rest.map (·.server) := by
          simpa only [List.map_cons, List.mem_cons, not_or] using h
        simp [recordIn, Ne.symm hne, ih hrest]
  induction xs using List.reverseRecOn with
  | nil => rfl
  | append_singleton xs m ih =>
      rw [List.map_append, List.nodup_append] at distinct
      obtain ⟨front, -, apart⟩ := distinct
      have new : m.server ∉ xs.map (·.server) := fun hm =>
        apart _ hm _ (List.mem_cons_self ..) rfl
      rw [ofList_concat]
      show recordIn m (ofList xs).measurements = xs ++ [m]
      rw [ih front, append new]

end Ledger

end NameserverAudit
