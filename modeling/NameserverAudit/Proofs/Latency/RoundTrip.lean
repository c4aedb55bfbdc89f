import Mathlib.Data.Prod.Lex
import Mathlib.Data.String.Basic
import NameserverAudit.Proofs.Address.Canonical
import NameserverAudit.Proofs.Latency.Saved
import NameserverAudit.Proofs.Lists
import NameserverAudit.Proofs.Number.Rounding

/-!
Saving a ledger and reading it back. Main statement: a ledger of canonical servers with defined
latencies is read back with the same servers and times and with its latencies rounded, so that
no two servers change places; and what is read back is saved as the same text again.
-/

namespace NameserverAudit

-----------------------------------------------------------------------------------------
-- Measurements
-----------------------------------------------------------------------------------------

/-- The name and the address are in canonical form. -/
def Server.IsCanonical (s : Server) : Prop :=
  canonicalName s.name = s.name ∧ canonicalAddress s.address = .ok s.address

instance (s : Server) : Decidable s.IsCanonical :=
  inferInstanceAs (Decidable (_ ∧ _))

namespace Measurement

/-- The measurement as it is written. -/
def asWritten (m : Measurement) : Measurement :=
  ⟨m.server, m.writtenLatency, m.time⟩

/-- The latency is a number, an infinity, or missing. -/
def IsDefined (m : Measurement) : Prop :=
  m.latency ≠ some .nan

instance (m : Measurement) : Decidable m.IsDefined :=
  inferInstanceAs (Decidable (_ ≠ _))

theorem position?_of_defined {x : Double} (h : some x ≠ some .nan)
    : ∃ p, x.position? = some p := by
  cases x with
  | nan => exact absurd rfl h
  | infinite negative => exact ⟨_, Double.position?_infinite negative⟩
  | finite negative units => exact ⟨_, rfl⟩

theorem asWritten_asWritten (m : Measurement) : m.asWritten.asWritten = m.asWritten := by
  cases hlatency : m.latency with
  | none => simp [asWritten, writtenLatency, hlatency]
  | some x =>
      simp [asWritten, writtenLatency, hlatency,
        Double.roundPlaces_roundPlaces (show 3 ≤ 22 by decide)]

theorem IsDefined.asWritten {m : Measurement} (h : m.IsDefined) : m.asWritten.IsDefined := by
  intro hy
  obtain ⟨x, hx, hnan⟩ := Option.map_eq_some_iff.1 hy
  have number : some x ≠ some .nan := fun e => h (hx.trans e)
  obtain ⟨p, hp⟩ := position?_of_defined number
  have := Double.position?_roundPlaces 3 x
  rw [hp, hnan] at this
  cases this

theorem ofJson_toJson_canonical {m : Measurement} (canonical : m.server.IsCanonical)
    : ofJson m.toJson = .ok m.asWritten := by
  rw [ofJson_toJson canonical.2, canonical.1]
  rfl

-----------------------------------------------------------------------------------------
-- The order of a listing
-----------------------------------------------------------------------------------------

/-- The place of a measurement in a listing: those with an answer first, by latency, and among
equals by name and address.
-/
def rank (m : Measurement) : ℕ ×ₗ ℤ ×ₗ String ×ₗ String :=
  toLex (if m.latency.isSome then 0 else 1,
    toLex ((m.latency.bind (·.position?)).getD 0, toLex (m.server.name, m.server.address)))

theorem before_iff (s t : Server)
    : s.before t = true
      ↔ (toLex (s.name, s.address) : String ×ₗ String) < toLex (t.name, t.address) := by
  rw [Prod.Lex.toLex_lt_toLex]
  simp [Server.before]

/-- Defined measurements are listed by rank. -/
theorem listedBefore_iff {m n : Measurement} (hm : m.IsDefined) (hn : n.IsDefined)
    : Ledger.listedBefore m n = true ↔ m.rank < n.rank := by
  obtain ⟨server, latency, time⟩ := m
  obtain ⟨server', latency', time'⟩ := n
  cases latency with
  | none =>
      cases latency' <;>
        simp [Ledger.listedBefore, Standing.ofMeasurement?, Standing.level, Standing.better,
          rank, before_iff, Prod.Lex.toLex_lt_toLex]
  | some x =>
      cases latency' with
      | none =>
          simp [Ledger.listedBefore, Standing.ofMeasurement?, Standing.level, Standing.better,
            rank, Prod.Lex.toLex_lt_toLex]
      | some y =>
          obtain ⟨p, hp⟩ := position?_of_defined hm
          obtain ⟨q, hq⟩ := position?_of_defined hn
          by_cases same : p = q
          · subst same
            simp [Ledger.listedBefore, Standing.ofMeasurement?, Standing.level, Double.same, hp,
              hq, rank, before_iff, Prod.Lex.toLex_lt_toLex]
          · simp [Ledger.listedBefore, Standing.ofMeasurement?, Standing.level, Standing.better,
              Double.same, Double.lt, hp, hq, same, rank, Prod.Lex.toLex_lt_toLex]

end Measurement

-----------------------------------------------------------------------------------------
-- Ledgers
-----------------------------------------------------------------------------------------

namespace Ledger

/-- A listing of defined measurements is in order of rank. -/
theorem pairwise_listing {l : Ledger} (h : ∀ m ∈ l.measurements, m.IsDefined)
    : l.listing.Pairwise fun m n => (!listedBefore n m) = true := by
  have agree : ∀ m ∈ l.measurements, ∀ n ∈ l.measurements,
      (!listedBefore n m) = decide (m.rank ≤ n.rank) := by
    intro m hm n hn
    rw [Bool.eq_iff_iff, Bool.not_eq_true', ← Bool.not_eq_true,
      Measurement.listedBefore_iff (h n hn) (h m hm), decide_eq_true_eq, not_lt]
  refine (pairwise_mergeSort_key agree).imp_of_mem fun {m n} hm hn hle => ?_
  rw [agree m (l.listing_perm.mem_iff.1 hm) n (l.listing_perm.mem_iff.1 hn)]
  exact decide_eq_true hle

/-- Ledgers with the same measurements, written or not, have the same of each server. -/
theorem find?_of_perm {l l' : Ledger} {f : Measurement → Measurement}
    (keeps : ∀ m, (f m).server = m.server)
    (perm : l'.measurements.Perm (l.measurements.map f)) (server : Server)
    : l'.find? server = (l.find? server).map f := by
  apply Option.ext
  intro n
  simp only [Option.map_eq_some_iff, find?_eq_some_iff, perm.mem_iff, List.mem_map]
  constructor
  · rintro ⟨⟨m, hm, rfl⟩, hserver⟩
    exact ⟨m, ⟨hm, (keeps m).symm.trans hserver⟩, rfl⟩
  · rintro ⟨m, ⟨hm, hserver⟩, rfl⟩
    exact ⟨⟨m, hm, rfl⟩, (keeps m).trans hserver⟩

/-- Rounding the latencies never turns the order of two servers around. -/
theorem better_of_written {a b : Option Measurement}
    (h : (Standing.ofMeasurement? a).better (.ofMeasurement? b) = true)
    : (Standing.ofMeasurement? (b.map Measurement.asWritten)).better
        (.ofMeasurement? (a.map Measurement.asWritten)) = false := by
  rcases a with - | ⟨_, x, _⟩ <;> rcases b with - | ⟨_, y, _⟩
  · rfl
  · cases y with
    | none => rfl
    | some y => cases h
  · cases x with
    | none => cases h
    | some x => rfl
  · cases x with
    | none => cases y <;> cases h
    | some x =>
        cases y with
        | none => rfl
        | some y => exact Double.not_lt_roundPlaces h

/-- The servers of a ledger are canonical and its latencies are defined. -/
structure Savable (l : Ledger) : Prop where
  canonical : ∀ m ∈ l.measurements, m.server.IsCanonical
  defined : ∀ m ∈ l.measurements, m.IsDefined

/-- A saved ledger is read back as its listing, each measurement as it was written. -/
theorem Savable.read {l : Ledger} (savable : l.Savable) (source : String)
    : ∃ l', ofText source l.text = .ok l'
      ∧ l'.measurements = l.listing.map Measurement.asWritten := by
  have read (m : Measurement) (hm : m ∈ l.measurements)
      : Measurement.ofJson m.toJson = .ok m.asWritten :=
    Measurement.ofJson_toJson_canonical (savable.canonical m hm)
  refine ⟨_, ofText_text source read, measurements_ofList ?_⟩
  have servers : (l.listing.map Measurement.asWritten).map (·.server)
      = l.listing.map (·.server) := by
    rw [List.map_map]
    rfl
  rw [servers]
  exact (l.listing_perm.map _).nodup_iff.2 l.distinct

theorem Savable.of_written {l l' : Ledger} (savable : l.Savable)
    (written : l'.measurements = l.listing.map Measurement.asWritten)
    : l'.Savable := by
  have source (m : Measurement) (hm : m ∈ l'.measurements)
      : ∃ n ∈ l.measurements, n.asWritten = m := by
    rw [written, List.mem_map] at hm
    obtain ⟨n, hn, rfl⟩ := hm
    exact ⟨n, l.listing_perm.mem_iff.1 hn, rfl⟩
  constructor
  · intro m hm
    obtain ⟨n, hn, rfl⟩ := source m hm
    exact savable.canonical n hn
  · intro m hm
    obtain ⟨n, hn, rfl⟩ := source m hm
    exact (savable.defined n hn).asWritten

/-- What is read back is in order and rounded already, so it is saved as the same text. -/
theorem Savable.read_again {l l' : Ledger} (savable : l.Savable)
    (written : l'.measurements = l.listing.map Measurement.asWritten) (source : String)
    : ∃ l'', ofText source l'.text = .ok l''
      ∧ (∀ server, l''.find? server = l'.find? server)
      ∧ l''.text = l'.text := by
  have savable' := savable.of_written written
  obtain ⟨l'', hread, hmeasurements⟩ := savable'.read source
  have same : l''.measurements = l'.listing := by
    rw [hmeasurements]
    refine (List.map_congr_left fun m hm => ?_).trans (List.map_id _)
    have hm' := l'.listing_perm.mem_iff.1 hm
    rw [written, List.mem_map] at hm'
    obtain ⟨n, -, rfl⟩ := hm'
    exact n.asWritten_asWritten
  refine ⟨l'', hread, fun server => ?_, ?_⟩
  · have perm : l''.measurements.Perm (l'.measurements.map id) := by
      rw [same, List.map_id]
      exact l'.listing_perm
    exact (find?_of_perm (f := id) (fun _ => rfl) perm server).trans (Option.map_id_apply)
  · have listing_eq : l''.listing = l'.listing := by
      rw [listing, same]
      exact List.mergeSort_of_pairwise (pairwise_listing savable'.defined)
    simp only [text, toJson, listing_eq]

/-- A ledger of canonical servers with defined latencies is saved and read back without a
fault. What is read back has the same servers, each with the time that it had and with its
latency rounded to three places, or none if it had none. So a server that stood before another
one never stands behind it. Saving what was read back gives a text that is read back as the same
measurements and is saved as the same text once more.
-/
theorem ofText_text_round_trip {l : Ledger} (savable : l.Savable) (source source' : String)
    : ∃ l', ofText source l.text = .ok l'
      ∧ l'.measurements.Perm (l.measurements.map fun m =>
          ⟨m.server, m.latency.map (·.roundPlaces 3), m.time⟩)
      ∧ (∀ server, l'.find? server
          = (l.find? server).map fun m =>
              ⟨m.server, m.latency.map (·.roundPlaces 3), m.time⟩)
      ∧ (∀ s t,
          (l.standing s).better (l.standing t) = true
          → (l'.standing t).better (l'.standing s) = false)
      ∧ ∃ l'', ofText source' l'.text = .ok l''
        ∧ (∀ server, l''.find? server = l'.find? server)
        ∧ l''.text = l'.text := by
  obtain ⟨l', hread, written⟩ := savable.read source
  have perm : l'.measurements.Perm (l.measurements.map Measurement.asWritten) := by
    rw [written]
    exact l.listing_perm.map _
  have found := find?_of_perm (f := Measurement.asWritten) (fun _ => rfl) perm
  refine ⟨l', hread, perm, found, fun s t h => ?_, savable.read_again written source'⟩
  rw [standing, standing, found, found]
  exact better_of_written h

/-- Two latencies that are rounded to one, the greater first by name, and a server without an
answer.
-/
def closeLedger : Ledger :=
  .ofList [
    ⟨⟨"b.root.", "192.0.2.2"⟩, some (Double.ofRatio false 120001 10000), .ofEpoch 864403200000000⟩,
    ⟨⟨"c.root.", "2001:db8::3"⟩, none, .ofEpoch 864403200000001⟩,
    ⟨⟨"a.root.", "192.0.2.1"⟩, some (Double.ofRatio false 120002 10000), .ofEpoch 864403200000000⟩]

theorem closeLedger_savable : closeLedger.Savable := by
  constructor <;> decide +kernel

theorem closeLedger_round_trip
    : ∃ l', ofText "cache.json" closeLedger.text = .ok l'
      ∧ l'.measurements.Perm (closeLedger.measurements.map fun m =>
          ⟨m.server, m.latency.map (·.roundPlaces 3), m.time⟩)
      ∧ (∀ server, l'.find? server
          = (closeLedger.find? server).map fun m =>
              ⟨m.server, m.latency.map (·.roundPlaces 3), m.time⟩)
      ∧ (∀ s t,
          (closeLedger.standing s).better (closeLedger.standing t) = true
          → (l'.standing t).better (l'.standing s) = false)
      ∧ ∃ l'', ofText "cache.json" l'.text = .ok l''
        ∧ (∀ server, l''.find? server = l'.find? server)
        ∧ l''.text = l'.text :=
  ofText_text_round_trip closeLedger_savable "cache.json" "cache.json"

end Ledger

end NameserverAudit
