import NameserverAudit.Proofs.Latency.RoundTrip

/-! The order of preference as an order of ranks. Main statement: if no latency is undefined,
ranked servers are in order of rank; those with an answer come first, by latency, then those
that were never measured, then those without an answer.
-/

namespace NameserverAudit

namespace Standing

/-- The place of a standing in the order of preference, the preferred one first. -/
def rank : Standing → ℕ ×ₗ ℤ
  | .reachable latency => toLex (0, latency.position?.getD 0)
  | .unknown => toLex (1, 0)
  | .unreachable => toLex (2, 0)

/-- Of two standings without an undefined latency the better one is of the smaller rank. -/
theorem better_iff {a b : Standing} (ha : a ≠ .reachable .nan) (hb : b ≠ .reachable .nan)
    : a.better b = true ↔ a.rank < b.rank := by
  cases a with
  | reachable x =>
      cases b with
      | reachable y =>
          obtain ⟨p, hp⟩ := Measurement.position?_of_defined (x := x) (by simpa using ha)
          obtain ⟨q, hq⟩ := Measurement.position?_of_defined (x := y) (by simpa using hb)
          simp [better, rank, Double.lt, hp, hq, Prod.Lex.toLex_lt_toLex]
      | unknown | unreachable => simp [better, rank, Prod.Lex.toLex_lt_toLex]
  | unknown | unreachable =>
      cases b <;> simp [better, rank, Prod.Lex.toLex_lt_toLex]

/-- Two standings without an undefined latency are level if they are of one rank. -/
theorem level_iff {a b : Standing} (ha : a ≠ .reachable .nan) (hb : b ≠ .reachable .nan)
    : a.level b = true ↔ a.rank = b.rank := by
  cases a with
  | reachable x =>
      cases b with
      | reachable y =>
          obtain ⟨p, hp⟩ := Measurement.position?_of_defined (x := x) (by simpa using ha)
          obtain ⟨q, hq⟩ := Measurement.position?_of_defined (x := y) (by simpa using hb)
          simp [level, rank, Double.same, hp, hq]
      | unknown | unreachable => simp [level, rank]
  | unknown | unreachable =>
      cases b <;> simp [level, rank]

end Standing

namespace Ledger

/-- A ledger without undefined latencies gives no server an undefined standing. -/
theorem standing_ne_nan {l : Ledger} (h : ∀ m ∈ l.measurements, m.IsDefined) (s : Server)
    : l.standing s ≠ .reachable .nan := by
  intro hs
  unfold standing Standing.ofMeasurement? at hs
  split at hs
  · cases hs
  · next m hm =>
    split at hs
    · cases hs
    · next x hx =>
      rw [Standing.reachable.inj hs] at hx
      exact h m (find?_eq_some_iff.1 hm).1 hx

/-- Ranked servers are in order of rank. -/
theorem pairwise_ranked {l : Ledger} (h : ∀ m ∈ l.measurements, m.IsDefined)
    (candidates : List Server)
    : (l.ranked candidates).Pairwise
        fun s t => (l.standing s).rank ≤ (l.standing t).rank := by
  refine pairwise_mergeSort_key fun s _ t _ => ?_
  rw [Bool.eq_iff_iff, Bool.not_eq_true', ← Bool.not_eq_true,
    Standing.better_iff (standing_ne_nan h t) (standing_ne_nan h s), decide_eq_true_eq, not_lt]

end Ledger

end NameserverAudit
