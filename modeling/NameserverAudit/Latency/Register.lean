import NameserverAudit.Latency.Ledger

/-!
The table behind a ledger as it is kept: entries with the times that clocks showed, put in one
after the other. An entry takes the place of the one that is there unless that one is later. The
times of one clock that tells its offset and one that does not are not compared: then nothing is
put in. Where all clocks are of universal time the table is a ledger.
-/

namespace NameserverAudit

/-- A measurement with the time that a clock showed. -/
structure Entry where
  server : Server
  latency : Option Double
  time : Timestamp
deriving DecidableEq, Repr

def Entry.ofMeasurement (m : Measurement) : Entry :=
  ⟨m.server, m.latency, .utc m.time⟩

/-- One entry for each server, in the order in which the servers first came. -/
structure Register where
  entries : List Entry
  distinct : (entries.map (·.server)).Nodup
deriving DecidableEq

namespace Register

/-- Stores an entry in a list: in the place of the server's entry if there is one, at the end if
not. -/
def storeIn (e : Entry) : List Entry → List Entry
  | [] => [e]
  | old :: rest => if old.server = e.server then e :: rest else old :: storeIn e rest

/-- The servers after storing: one more, if it was not there. By induction on the list. -/
theorem storeIn_servers (e : Entry) (xs : List Entry)
    : (storeIn e xs).map (·.server)
      = if e.server ∈ xs.map (·.server) then xs.map (·.server)
        else xs.map (·.server) ++ [e.server] := by
  induction xs with
  | nil => simp [storeIn]
  | cons old rest ih =>
      by_cases same : old.server = e.server
      · simp [storeIn, same]
      · have other : ¬e.server = old.server := fun h => same h.symm
        by_cases known : e.server ∈ rest.map (·.server)
        · simp only [storeIn, same, if_false, List.map_cons, ih, known, if_true, List.mem_cons,
            or_true]
        · simp only [storeIn, same, if_false, List.map_cons, ih, known, List.mem_cons, other,
            or_false, List.cons_append]

theorem nodup_storeIn {e : Entry} {xs : List Entry} (distinct : (xs.map (·.server)).Nodup)
    : ((storeIn e xs).map (·.server)).Nodup := by
  rw [storeIn_servers]
  split
  · exact distinct
  · next unknown =>
    refine List.nodup_append.2 ⟨distinct, by simp, ?_⟩
    rintro a ha b hb rfl
    exact unknown (List.mem_singleton.1 hb ▸ ha)

def empty : Register := ⟨[], by simp⟩

def find? (r : Register) (server : Server) : Option Entry :=
  r.entries.find? (·.server = server)

def store (r : Register) (e : Entry) : Register :=
  ⟨storeIn e r.entries, nodup_storeIn r.distinct⟩

/-- Puts an entry in, and gives the one that is there then: the entry that was there before, if
it is later, and then the register stays as it is. -/
def put (r : Register) (e : Entry) : Except Timestamp.Incomparable (Entry × Register) :=
  match r.find? e.server with
  | none => .ok (e, r.store e)
  | some current =>
      match current.time.isAfter e.time with
      | .error fault => .error fault
      | .ok later => .ok (if later then (current, r) else (e, r.store e))

/-- Puts entries in, one after the other. -/
def putAll (r : Register) : List Entry → Except Timestamp.Incomparable Register
  | [] => .ok r
  | e :: rest =>
      match r.put e with
      | .error fault => .error fault
      | .ok (_, r) => r.putAll rest

/-- The register of entries that were put in one after the other. -/
def ofList (xs : List Entry) : Except Timestamp.Incomparable Register :=
  empty.putAll xs

/-- Records a latency that is measured at the present time, or at the time that a clock showed,
and gives the entry that is there then. -/
def record (r : Register) (server : Server) (latency : Json) (time : Option Timestamp)
    (now : Instant) : Except RecordFault (Entry × Register) :=
  match Measurement.reported server latency time now with
  | .error fault => .error fault
  | .ok m =>
      match r.put (.ofMeasurement m) with
      | .error fault => .error (.time fault)
      | .ok kept => .ok kept

end Register

end NameserverAudit
