import NameserverAudit.Proofs.Latency.Probing
import NameserverAudit.Proofs.Latency.RoundTrip
import NameserverAudit.Proofs.Zone.RootServers

/-!
Probing again after the ledger was saved and read back. Measurements are read back under the
canonical form of their servers, but root servers are looked for under the addresses of the
zone. Main statement: nothing is measured again exactly if the wanted addresses are canonical.
-/

namespace NameserverAudit

-----------------------------------------------------------------------------------------
-- What is read back
-----------------------------------------------------------------------------------------

theorem canonicalAddress_eq_ok_iff {raw s : String}
    : canonicalAddress raw = .ok s ↔ canonicalAddress? raw = some s := by
  unfold canonicalAddress
  cases canonicalAddress? raw <;> simp

/-- The address is a literal, in canonical form or not. -/
def Server.HasLiteral (s : Server) : Prop :=
  ∃ a, canonicalAddress s.address = .ok a

namespace Measurement

/-- The measurement as it is read back after it was written. -/
def reread (m : Measurement) : Measurement :=
  ⟨⟨canonicalName m.server.name, (canonicalAddress? m.server.address).getD m.server.address⟩,
    m.writtenLatency, m.time⟩

/-- A measurement that was written is read back exactly if its address is a literal. -/
theorem ofJson_toJson_iff {m n : Measurement}
    : ofJson m.toJson = .ok n ↔ m.server.HasLiteral ∧ n = m.reread := by
  cases literal : canonicalAddress m.server.address with
  | ok a =>
      have : canonicalAddress? m.server.address = some a := canonicalAddress_eq_ok_iff.1 literal
      simp [ofJson_toJson literal, Server.HasLiteral, literal, reread, this, eq_comm]
  | error refusal =>
      obtain ⟨fault, hfault⟩ : ∃ fault, serverOf m.toJson = .error fault := by
        simp [serverOf, toJson, fieldText, Json.field?, Json.lookup, Json.asText, literal,
          Bind.bind, Except.bind]
      unfold toJson at hfault ⊢
      simp [ofJson, hfault, Server.HasLiteral, literal, Bind.bind, Except.bind]

end Measurement

namespace Ledger

variable {l l' : Ledger}

/-- If entries that were written are read, all their addresses are literals, by induction on
the measurements.
-/
theorem hasLiteral_of_measurementsOf {ms xs : List Measurement}
    (h : measurementsOf (ms.map Measurement.toJson) = .ok xs)
    : ∀ m ∈ ms, m.server.HasLiteral := by
  induction ms generalizing xs with
  | nil => simp
  | cons first rest ih =>
      simp only [List.map_cons, measurementsOf, Bind.bind, Except.bind] at h
      split at h
      · cases h
      · next n hn =>
        split at h
        · cases h
        · next more hmore =>
          intro m hm
          rcases List.mem_cons.1 hm with rfl | hm
          · exact (Measurement.ofJson_toJson_iff.1 hn).1
          · exact ih hmore m hm

/-- A ledger that was saved is read back exactly if its addresses are literals. -/
theorem ofText_text_iff (source : String)
    : ofText source l.text = .ok l'
      ↔ (∀ m ∈ l.measurements, m.server.HasLiteral)
        ∧ l' = ofList (l.listing.map Measurement.reread) := by
  constructor
  · intro read
    have literals : ∀ m ∈ l.measurements, m.server.HasLiteral := by
      rw [ofText_text_eq] at read
      simp only [toJson, ofJson] at read
      split at read
      · cases read
      · next xs hxs =>
        intro m hm
        exact hasLiteral_of_measurementsOf hxs m (l.listing_perm.mem_iff.2 hm)
    have reread := ofText_text source fun m hm =>
      Measurement.ofJson_toJson_iff.2 ⟨literals m hm, rfl⟩
    rw [reread] at read
    exact ⟨literals, (Except.ok.inj read).symm⟩
  · rintro ⟨literals, rfl⟩
    exact ofText_text source fun m hm =>
      Measurement.ofJson_toJson_iff.2 ⟨literals m hm, rfl⟩

-----------------------------------------------------------------------------------------
-- What is still fresh
-----------------------------------------------------------------------------------------

/-- The ledger of a list has a measurement of each of its servers that is at least as young,
by induction on the list.
-/
theorem hasSince_ofList {given : List Measurement} {m : Measurement} (hm : m ∈ given)
    : (ofList given).HasSince m.server m.time.microseconds := by
  induction given using List.reverseRecOn with
  | nil => cases hm
  | append_singleton given n ih =>
      rw [ofList_concat]
      rcases List.mem_append.1 hm with hm | hm
      · exact (ih hm).record n
      · rw [List.mem_singleton.1 hm]
        exact hasSince_record _ n

/-- The address of a server in presentation form is canonical if a measurement of the server is
there when the ledger was read back.
-/
theorem canonical_of_reread {s : Server} {a : Address} {since : Int}
    (presents : a.presentation = s.address)
    (literals : ∀ m ∈ l.measurements, m.server.HasLiteral)
    (h : (ofList (l.listing.map Measurement.reread)).HasSince s since)
    : canonicalAddress s.address = .ok s.address := by
  obtain ⟨n, hn, -⟩ := h
  obtain ⟨hmem, hserver⟩ := find?_eq_some_iff.1 hn
  obtain ⟨m, hm, rfl⟩ := List.mem_map.1 (mem_of_mem_ofList hmem)
  obtain ⟨b, hb⟩ := literals m (l.listing_perm.mem_iff.1 hm)
  have same : b = s.address := by
    rw [← hserver, Measurement.reread, canonicalAddress_eq_ok_iff.1 hb]
    rfl
  rw [same, ← presents] at hb
  have := Address.canonicalAddress_presentation a
  rwa [Address.text_of_canonicalAddress hb, presents] at this

/-- A canonical server keeps its measurement when the ledger is read back, or it has a younger
one.
-/
theorem HasSince.reread {s : Server} {since : Int} (canonical : s.IsCanonical)
    (h : l.HasSince s since)
    : (ofList (l.listing.map Measurement.reread)).HasSince s since := by
  obtain ⟨m, hm, recent⟩ := h
  obtain ⟨hmem, rfl⟩ := find?_eq_some_iff.1 hm
  have hreread : m.reread.server = m.server := by
    rw [Measurement.reread, canonical.1, canonicalAddress_eq_ok_iff.1 canonical.2]
    rfl
  obtain ⟨n, hn, later⟩ := hasSince_ofList
    (List.mem_map_of_mem (f := Measurement.reread) (l.listing_perm.mem_iff.2 hmem))
  rw [hreread] at hn
  exact ⟨n, hn, Int.le_trans recent later⟩

end Ledger

-----------------------------------------------------------------------------------------
-- Probing again
-----------------------------------------------------------------------------------------

namespace ProbePlan

/-- A probe succeeds if its payload fits or no server is due. After a probe that succeeded, the
ledger can be saved and read back and a probe at the same time then has nothing to do, exactly if
all addresses that were in the ledger before are literals and the wanted addresses of the zone are
canonical: a root server with another address is read back under the canonical form of it, and so
it is not found.
-/
theorem run_rests_after_reading_iff {p : ProbePlan} {reader : Zone.Reader} {d : Zone.Directory}
    {servers : List Server} {zoneSource zone : String} {span : Int}
    (read : (Zone.Directory.ofTextBy reader zoneSource zone).directory = .ok d)
    (wanted : d.servers p.families = .ok servers)
    (nonneg : Double.zero.le p.maxAge = true)
    (age : (Seconds.real p.maxAge).toMicroseconds = .ok span)
    (now : Instant) (l : Ledger) (force : Bool) (j : Journal) (source : String)
    : (p.manner.Fits ∨ p.due d l now force = .ok [] →
        ∃ n l' j', p.run d now force l j = (.ok n, l', j'))
      ∧ ∀ n l' j', p.run d now force l j = (.ok n, l', j') →
          ((∃ l'', Ledger.ofText source l'.text = .ok l''
                ∧ ∀ j'', p.run d now false l'' j'' = (.ok 0, l'', j''))
            ↔ (∀ m ∈ l.measurements, ∃ a, canonicalAddress m.server.address = .ok a)
              ∧ ∀ s ∈ servers, canonicalAddress s.address = .ok s.address) := by
  refine ⟨?_, fun n l' j' hrun => ?_⟩
  · rintro (fits | resting)
    · obtain ⟨due, hdue, -⟩ := due_eq wanted now age force l
      obtain ⟨l', j', hrun⟩ := run_of_fits fits hdue j
      exact ⟨_, l', j', hrun⟩
    · exact ⟨0, l, j, by rw [run, resting]⟩
  have leaves := run_leaves wanted age (Seconds.toMicroseconds_nonneg nonneg age) hrun
  have presents {s : Server} (hs : s ∈ servers)
      : canonicalName s.name = s.name ∧ ∃ a : Address, a.presentation = s.address :=
    Zone.Directory.presents_of_mem_servers read wanted hs
  have literals : (∀ m ∈ l'.measurements, m.server.HasLiteral)
      ↔ ∀ m ∈ l.measurements, m.server.HasLiteral := by
    constructor
    · intro h m hm
      have before : l.find? m.server = some m := Ledger.find?_eq_some_iff.2 ⟨hm, rfl⟩
      obtain ⟨k, hk, -⟩ := leaves.kept m.server m.time.microseconds ⟨m, before, Int.le_refl _⟩
      obtain ⟨hmem, hserver⟩ := Ledger.find?_eq_some_iff.1 hk
      exact hserver ▸ h k hmem
    · intro h m hm
      rcases leaves.added m hm with hm | ⟨hs, -⟩
      · exact h m hm
      · obtain ⟨-, a, ha⟩ := presents hs
        exact ⟨a.unscoped.text, ha ▸ a.canonicalAddress_presentation⟩
  constructor
  · rintro ⟨l'', hread, rests⟩
    obtain ⟨hliterals, rfl⟩ := (Ledger.ofText_text_iff source).1 hread
    refine ⟨literals.1 hliterals, fun s hs => ?_⟩
    obtain ⟨-, a, ha⟩ := presents hs
    exact Ledger.canonical_of_reread ha hliterals
      ((run_rests_iff wanted age _ j).1 (rests j) s hs)
  · rintro ⟨hliterals, canonical⟩
    refine ⟨_, (Ledger.ofText_text_iff source).2 ⟨literals.2 hliterals, rfl⟩,
      fun j'' => (run_rests_iff wanted age _ j'').2 fun s hs => ?_⟩
    exact (leaves.fresh s hs).reread ⟨(presents hs).1, canonical s hs⟩

/-- A zone whose root server has an address of version 4 in the form of one of version 6. -/
def mappedZone : String :=
  ". NS a.root.\na.root. AAAA ::ffff:192.0.2.1\n"

def mappedDirectory : Zone.Directory :=
  ⟨[⟨"a.root.", .empty, TextSet.empty.insert "::ffff:192.0.2.1"⟩], []⟩

/-- A plan that measures all root servers once a day, on a network that never answers. -/
def dailyPlan : ProbePlan :=
  ⟨.silent, .standard, 1, 20, [.known .ipv4, .known .ipv6], .ofInt 86400⟩

/-- The first of June 2024. -/
def firstOfJune : Instant :=
  .ofEpoch 1717200000000000

/-- A ledger in which the root server stands under the canonical form of its address. -/
def hexLedger : Ledger :=
  .ofList [⟨⟨"a.root.", "::ffff:c000:201"⟩, none, firstOfJune⟩]

theorem mappedZone_read
    : (Zone.Directory.ofText "hints" mappedZone).directory = .ok mappedDirectory := by
  decide +kernel

theorem mappedDirectory_servers
    : mappedDirectory.servers dailyPlan.families
      = .ok [⟨"a.root.", "::ffff:192.0.2.1"⟩] := by
  decide +kernel

theorem dailyPlan_span : (Seconds.real dailyPlan.maxAge).toMicroseconds = .ok 86400000000 := by
  decide +kernel

theorem dailyPlan_rests_after_reading_iff
    : ∃ n l' j',
        dailyPlan.run mappedDirectory firstOfJune false hexLedger .start = (.ok n, l', j')
        ∧ ((∃ l'', Ledger.ofText "cache.json" l'.text = .ok l''
              ∧ ∀ j'',
                  dailyPlan.run mappedDirectory firstOfJune false l'' j'' = (.ok 0, l'', j''))
            ↔ (∀ m ∈ hexLedger.measurements,
                  ∃ a, canonicalAddress m.server.address = .ok a)
              ∧ ∀ s ∈ [(⟨"a.root.", "::ffff:192.0.2.1"⟩ : Server)],
                  canonicalAddress s.address = .ok s.address) := by
  obtain ⟨succeeds, rests_iff⟩ := run_rests_after_reading_iff mappedZone_read
    mappedDirectory_servers (by decide +kernel) dailyPlan_span firstOfJune hexLedger false .start
    "cache.json"
  obtain ⟨n, l', j', hrun⟩ := succeeds (.inl ⟨by decide, by decide⟩)
  exact ⟨n, l', j', hrun, rests_iff n l' j' hrun⟩

/-- The root server is measured, the ledger is saved and read back, and at the same time the
root server is measured once more.
-/
theorem mappedZone_probed_again
    : (Zone.Directory.ofText "hints" mappedZone).directory = .ok mappedDirectory
      ∧ ∃ l' j', dailyPlan.run mappedDirectory firstOfJune false .empty .start = (.ok 1, l', j')
        ∧ Ledger.ofText "cache.json" l'.text = .ok hexLedger
        ∧ (dailyPlan.run mappedDirectory firstOfJune false hexLedger j').1 = .ok 1 := by
  refine ⟨mappedZone_read,
    .ofList [⟨⟨"a.root.", "::ffff:192.0.2.1"⟩, none, firstOfJune⟩],
    (dailyPlan.run mappedDirectory firstOfJune false .empty .start).2.2, ?_, ?_, ?_⟩
  · decide +kernel
  · decide +kernel
  · decide +kernel

end ProbePlan

end NameserverAudit
