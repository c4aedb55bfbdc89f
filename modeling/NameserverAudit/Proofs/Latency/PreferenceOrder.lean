import Mathlib.Data.List.Sort
import NameserverAudit.Proofs.Latency.Ranking

/-! One order of preference. Ranking a list, ranking a set, choosing the best candidate and
listing a ledger all follow the place of a server: its rank, then its name, then its address.
Main statement: what each of the four gives, by places alone, so that they agree wherever two of
them can be compared.
-/

namespace NameserverAudit

-----------------------------------------------------------------------------------------
-- Places
-----------------------------------------------------------------------------------------

/-- The place of a server among servers of one rank: by name, then by address. -/
def Server.place (s : Server) : String ×ₗ String :=
  toLex (s.name, s.address)

theorem Server.place_injective : Function.Injective Server.place := by
  intro s t h
  obtain ⟨name, address⟩ := Prod.mk.inj (toLex.injective h)
  exact Server.mk.injEq .. ▸ ⟨name, address⟩

/-- Sorted servers are in order by name and address. -/
theorem Server.pairwise_sorted (servers : List Server)
    : (sorted servers).Pairwise fun s t => s.place ≤ t.place := by
  refine pairwise_mergeSort_key fun s _ t _ => ?_
  rw [Bool.eq_iff_iff, Bool.not_eq_true', ← Bool.not_eq_true, Measurement.before_iff,
    decide_eq_true_eq, not_lt]
  rfl

namespace Ledger

variable {l : Ledger}

/-- The place of a server in the order of preference: by rank, then by name and address. -/
def place (l : Ledger) (s : Server) : (ℕ ×ₗ ℤ) ×ₗ String ×ₗ String :=
  toLex ((l.standing s).rank, s.place)

theorem place_injective (l : Ledger) : Function.Injective l.place := by
  intro s t h
  exact Server.place_injective (Prod.mk.inj (toLex.injective h)).2

theorem place_lt_iff {s t : Server}
    : l.place s < l.place t
      ↔ (l.standing s).rank < (l.standing t).rank
        ∨ (l.standing s).rank = (l.standing t).rank ∧ s.place < t.place :=
  Prod.Lex.toLex_lt_toLex

/-- Lists with the same members that are in order of place have the same first member. -/
theorem head?_eq_of_pairwise_place {xs ys : List Server}
    (hx : xs.Pairwise fun s t => l.place s ≤ l.place t)
    (hy : ys.Pairwise fun s t => l.place s ≤ l.place t) (same : ∀ s, s ∈ xs ↔ s ∈ ys)
    : xs.head? = ys.head? := by
  have least {s : Server} {rest zs : List Server}
      (h : (s :: rest).Pairwise fun s t => l.place s ≤ l.place t)
      (among : ∀ t ∈ zs, t ∈ s :: rest)
      : ∀ t ∈ zs, l.place s ≤ l.place t := by
    intro t ht
    rcases List.mem_cons.1 (among t ht) with rfl | hrest
    · exact le_rfl
    · exact List.rel_of_pairwise_cons h hrest
  cases xs with
  | nil =>
      cases ys with
      | nil => rfl
      | cons t ys => exact absurd ((same t).2 (by simp)) (by simp)
  | cons s xs =>
      cases ys with
      | nil => exact absurd ((same s).1 (by simp)) (by simp)
      | cons t ys =>
          have hst := least hx (fun u hu => (same u).2 hu) t (by simp)
          have hts := least hy (fun u hu => (same u).1 hu) s (by simp)
          have : s = t := l.place_injective (le_antisymm hst hts)
          simp only [List.head?_cons, this]

-----------------------------------------------------------------------------------------
-- The four readers
-----------------------------------------------------------------------------------------

section
variable (defined : ∀ m ∈ l.measurements, m.IsDefined)
include defined

/-- Ranking is sorting by rank. -/
theorem ranked_eq_mergeSort (candidates : List Server)
    : l.ranked candidates
      = candidates.mergeSort fun s t =>
          decide ((l.standing s).rank ≤ (l.standing t).rank) := by
  have tests : (fun s t => !(l.standing t).better (l.standing s))
      = fun s t => decide ((l.standing s).rank ≤ (l.standing t).rank) := by
    funext s t
    rw [Bool.eq_iff_iff, Bool.not_eq_true', ← Bool.not_eq_true,
      Standing.better_iff (standing_ne_nan defined t) (standing_ne_nan defined s),
      decide_eq_true_eq, not_lt]
  rw [ranked, tests]

/-- Candidates that were sorted before they are ranked are in order of place. -/
theorem pairwise_ranked_sorted (candidates : List Server)
    : (l.ranked (Server.sorted candidates)).Pairwise fun s t => l.place s ≤ l.place t := by
  rw [ranked_eq_mergeSort defined]
  apply (pairwise_mergeSort_key_of _ _ (Server.pairwise_sorted candidates)).imp
  intro s t h
  exact Prod.Lex.toLex_le_toLex.2 h

omit defined in
theorem mem_rankedSet {candidates : List Server} {s : Server}
    : s ∈ l.rankedSet candidates ↔ s ∈ candidates := by
  rw [rankedSet, mem_ranked, (Server.sorted_perm _).mem_iff, List.mem_eraseDups]

/-- A ranked set is strictly in order of place, since its members are different. -/
theorem pairwise_rankedSet (candidates : List Server)
    : (l.rankedSet candidates).Pairwise fun s t => l.place s < l.place t := by
  have distinct : (l.rankedSet candidates).Nodup :=
    (((l.ranked_perm _).trans (Server.sorted_perm _)).nodup_iff).2 (nodup_eraseDups _)
  apply ((pairwise_ranked_sorted defined candidates.eraseDups).and distinct).imp
  rintro s t ⟨le, ne⟩
  exact lt_of_le_of_ne le fun h => ne (l.place_injective h)

/-- The set of candidates has one order of place. -/
theorem eq_rankedSet_iff {candidates xs : List Server}
    : xs = l.rankedSet candidates
      ↔ (∀ s, s ∈ xs ↔ s ∈ candidates) ∧ xs.Pairwise fun s t => l.place s < l.place t := by
  constructor
  · rintro rfl
    exact ⟨fun s => mem_rankedSet, pairwise_rankedSet defined candidates⟩
  · rintro ⟨same, sorted⟩
    have : Std.Irrefl fun s t => l.place s < l.place t := ⟨fun _ => lt_irrefl _⟩
    have : Std.Antisymm fun s t => l.place s < l.place t :=
      ⟨fun _ _ h h' => absurd h (lt_asymm h')⟩
    apply sorted.eq_of_mem_iff (pairwise_rankedSet defined candidates)
    intro s
    rw [same, mem_rankedSet]

/-- The best candidate is the first one of the ranked set, whatever the candidates are listed
like.
-/
theorem best?_eq_head? {candidates set : List Server} (same : ∀ s, s ∈ set ↔ s ∈ candidates)
    : l.best? candidates = (l.rankedSet set).head? := by
  apply head?_eq_of_pairwise_place (pairwise_ranked_sorted defined candidates)
    (pairwise_ranked_sorted defined set.eraseDups)
  intro s
  rw [mem_ranked, mem_ranked, (Server.sorted_perm _).mem_iff, (Server.sorted_perm _).mem_iff,
    List.mem_eraseDups, same]

/-- A measurement is listed before another one if its server has the smaller place. -/
theorem listedBefore_iff_place {m n : Measurement} (hm : m ∈ l.measurements)
    (hn : n ∈ l.measurements)
    : listedBefore m n = true ↔ l.place m.server < l.place n.server := by
  have standing_of {k : Measurement} (hk : k ∈ l.measurements)
      : Standing.ofMeasurement? (some k) = l.standing k.server := by
    rw [standing, find?_eq_some_iff.2 ⟨hk, rfl⟩]
  have hlevel := Standing.level_iff (standing_ne_nan defined m.server)
    (standing_ne_nan defined n.server)
  have hbetter := Standing.better_iff (standing_ne_nan defined m.server)
    (standing_ne_nan defined n.server)
  simp only [listedBefore, standing_of hm, standing_of hn, place_lt_iff]
  split
  · next level =>
    have same := hlevel.1 level
    rw [Measurement.before_iff]
    simp only [same, lt_self_iff_false, true_and, false_or]
    rfl
  · next not_level =>
    have different := mt hlevel.2 not_level
    rw [hbetter, or_iff_left fun h => different h.1]

/-- A listing is strictly in order of place. -/
theorem pairwise_listing_place
    : (l.listing.map (·.server)).Pairwise fun s t => l.place s < l.place t := by
  have agree : ∀ m ∈ l.measurements, ∀ n ∈ l.measurements,
      (!listedBefore n m) = decide (l.place m.server ≤ l.place n.server) := by
    intro m hm n hn
    rw [Bool.eq_iff_iff, Bool.not_eq_true', ← Bool.not_eq_true,
      listedBefore_iff_place defined hn hm, decide_eq_true_eq, not_lt]
  have sorted : (l.listing.map (·.server)).Pairwise fun s t => l.place s ≤ l.place t :=
    List.pairwise_map.2 (pairwise_mergeSort_key agree)
  have distinct : (l.listing.map (·.server)).Nodup :=
    (l.listing_perm.map _).nodup_iff.2 l.distinct
  apply (sorted.and distinct).imp
  rintro s t ⟨le, ne⟩
  exact lt_of_le_of_ne le fun h => ne (l.place_injective h)

/-- In a ledger without undefined latencies there is one order of preference. A ranked list has
the candidates that were given, in order of rank, and those of one rank in the order in which they
were given. A ranked set is the one list of its members that is strictly in order of place, so it
depends on the set alone; the best candidate is its first member, and there is one unless there
are no candidates. And the servers of the listing are the ranked set of all measured servers.
-/
theorem preference_order_agrees
    : (∀ candidates,
          (l.ranked candidates).Perm candidates
          ∧ (l.ranked candidates).Pairwise
              (fun s t => (l.standing s).rank ≤ (l.standing t).rank)
          ∧ ∀ rank,
              (l.ranked candidates).filter (fun s => (l.standing s).rank = rank)
                = candidates.filter fun s => (l.standing s).rank = rank)
      ∧ (∀ candidates xs,
          xs = l.rankedSet candidates
          ↔ (∀ s, s ∈ xs ↔ s ∈ candidates) ∧ xs.Pairwise fun s t => l.place s < l.place t)
      ∧ (∀ candidates set, (∀ s, s ∈ set ↔ s ∈ candidates) →
          l.best? candidates = (l.rankedSet set).head?)
      ∧ (∀ candidates, l.best? candidates = none ↔ candidates = [])
      ∧ l.rankedSet (l.measurements.map (·.server)) = l.listing.map (·.server) := by
  refine ⟨fun candidates => ⟨l.ranked_perm candidates, pairwise_ranked defined candidates, ?_⟩,
    fun candidates xs => eq_rankedSet_iff defined,
    fun candidates set same => best?_eq_head? defined same, fun candidates => ?_, ?_⟩
  · intro rank
    rw [ranked_eq_mergeSort defined]
    exact filter_mergeSort_key _ _ rank
  · have perm : (l.ranked (Server.sorted candidates)).Perm candidates :=
      (l.ranked_perm _).trans (Server.sorted_perm _)
    rw [best?, List.head?_eq_none_iff]
    constructor
    · intro none
      rw [none] at perm
      exact perm.nil_eq.symm
    · rintro rfl
      exact perm.eq_nil
  · symm
    apply (eq_rankedSet_iff defined).2
    refine ⟨fun s => ?_, pairwise_listing_place defined⟩
    exact (l.listing_perm.map _).mem_iff

end

/-- A ledger with two servers of one latency, and one that did not answer. -/
def tiedLedger : Ledger :=
  .ofList [⟨⟨"c.root.", "192.0.2.3"⟩, none, .atEpoch⟩,
    ⟨⟨"b.root.", "192.0.2.2"⟩, some (.ofInt 20), .atEpoch⟩,
    ⟨⟨"a.root.", "192.0.2.1"⟩, some (.ofInt 20), .atEpoch⟩]

/-- Witness: the two servers of one latency are in order by name, then comes one that was never
measured, and last the one that did not answer.
-/
theorem tiedLedger_preference_order
    : (∀ m ∈ tiedLedger.measurements, m.IsDefined)
      ∧ [⟨"a.root.", "192.0.2.1"⟩, ⟨"b.root.", "192.0.2.2"⟩, ⟨"d.root.", "192.0.2.4"⟩,
          ⟨"c.root.", "192.0.2.3"⟩]
        = tiedLedger.rankedSet [⟨"d.root.", "192.0.2.4"⟩, ⟨"c.root.", "192.0.2.3"⟩,
            ⟨"b.root.", "192.0.2.2"⟩, ⟨"a.root.", "192.0.2.1"⟩, ⟨"b.root.", "192.0.2.2"⟩] := by
  refine ⟨by decide +kernel, ((preference_order_agrees (by decide +kernel)).2.1 _ _).2 ⟨?_, ?_⟩⟩
  · intro s
    simp only [List.mem_cons, List.not_mem_nil, or_false]
    tauto
  · decide +kernel

end Ledger

end NameserverAudit
