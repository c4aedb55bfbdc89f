import Mathlib.Data.List.Induction
import Mathlib.Data.List.Nodup
import NameserverAudit.Latency.Archive

/-! What a ledger has of a server. Main statements: a server is found exactly if one of the
measurements is its own, recording adds no measurement but the new one, and a ledger of given
measurements has only these.
-/

namespace NameserverAudit

namespace Ledger

variable {m n : Measurement}

/-- What a list holds of a server is found, if it has one measurement of each. By induction on
the list.
-/
theorem lookup_eq_some_iff {server : Server} {xs : List Measurement}
    (distinct : (xs.map (·.server)).Nodup)
    : lookup server xs = some m ↔ m ∈ xs ∧ m.server = server := by
  induction xs with
  | nil => simp [lookup]
  | cons x rest ih =>
      obtain ⟨hnot, hrest⟩ := List.nodup_cons.1 distinct
      by_cases hx : x.server = server
      · simp only [lookup, hx, if_true, Option.some.injEq, List.mem_cons]
        constructor
        · rintro rfl
          exact ⟨.inl rfl, hx⟩
        · rintro ⟨rfl | hm, hserver⟩
          · rfl
          · have hmem : x.server ∈ rest.map (·.server) :=
              hx.trans hserver.symm ▸ List.mem_map_of_mem hm
            exact absurd hmem hnot
      · rw [lookup, if_neg hx, ih hrest, List.mem_cons]
        refine ⟨fun h => ⟨.inr h.1, h.2⟩, ?_⟩
        rintro ⟨rfl | hm, hserver⟩
        · exact absurd hserver hx
        · exact ⟨hm, hserver⟩

theorem find?_eq_some_iff {l : Ledger} {server : Server}
    : l.find? server = some m ↔ m ∈ l.measurements ∧ m.server = server :=
  lookup_eq_some_iff l.distinct

/-- Recording adds the measurement and no other one, by induction on the list. -/
theorem mem_recordIn {xs : List Measurement} (h : n ∈ recordIn m xs) : n ∈ xs ∨ n = m := by
  induction xs with
  | nil => exact .inr (List.mem_singleton.1 h)
  | cons old rest ih =>
      unfold recordIn at h
      split at h
      · rcases List.mem_cons.1 h with rfl | h
        · unfold newer
          split
          · exact .inl (List.mem_cons_self ..)
          · exact .inr rfl
        · exact .inl (List.mem_cons_of_mem old h)
      · rcases List.mem_cons.1 h with rfl | h
        · exact .inl (List.mem_cons_self ..)
        · exact (ih h).imp_left (List.mem_cons_of_mem old)

theorem mem_record {l : Ledger} (h : n ∈ (l.record m).measurements)
    : n ∈ l.measurements ∨ n = m :=
  mem_recordIn h

theorem ofList_concat (given : List Measurement) (m : Measurement)
    : ofList (given ++ [m]) = (ofList given).record m := by
  simp [ofList]

/-- A ledger has only what was given, by induction on that. -/
theorem mem_of_mem_ofList {given : List Measurement} (h : m ∈ (ofList given).measurements)
    : m ∈ given := by
  induction given using List.reverseRecOn with
  | nil => exact h
  | append_singleton given n ih =>
      rw [ofList_concat] at h
      rcases mem_record h with h | rfl
      · exact List.mem_append_left _ (ih h)
      · exact List.mem_append_right _ (List.mem_singleton_self _)

end Ledger

end NameserverAudit
