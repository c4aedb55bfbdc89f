import NameserverAudit.Latency.Measurement

/-!
The ledger of last known latencies: at most one measurement a server. A measurement older than
the one that is there is ignored; one that is as old or younger takes its place. Main
statements: what a server's measurement is after recording one, and no other server's
measurement changes.
-/

namespace NameserverAudit

/-- The last known measurement of each server, in the order in which the servers first came. -/
structure Ledger where
  measurements : List Measurement
  distinct : (measurements.map (·.server)).Nodup
deriving DecidableEq

namespace Ledger

def lookup (server : Server) : List Measurement → Option Measurement
  | [] => none
  | m :: rest => if m.server = server then some m else lookup server rest

/-- The measurement that stays when a second one of the same server comes. -/
def newer (old new : Measurement) : Measurement :=
  if new.time.microseconds < old.time.microseconds then old else new

/-- Records a measurement in a list: in the place of the server's measurement if there is one,
at the end if not. -/
def recordIn (m : Measurement) : List Measurement → List Measurement
  | [] => [m]
  | old :: rest =>
      if old.server = m.server then newer old m :: rest else old :: recordIn m rest

/-- What stays is a measurement of the same server. -/
theorem newer_server {old new : Measurement} (h : old.server = new.server)
    : (newer old new).server = old.server := by
  unfold newer
  split <;> simp [h]

/-- The servers after recording: one more, if it was not there. -/
theorem recordIn_servers (m : Measurement) (xs : List Measurement)
    : (recordIn m xs).map (·.server)
      = if m.server ∈ xs.map (·.server) then xs.map (·.server)
        else xs.map (·.server) ++ [m.server] := by
  induction xs with
  | nil => simp [recordIn]
  | cons old rest ih =>
      by_cases h : old.server = m.server
      · simp [recordIn, h, newer_server h]
      · have h' : ¬m.server = old.server := fun e => h e.symm
        by_cases hm : m.server ∈ rest.map (·.server)
        · simp only [recordIn, h, if_false, List.map_cons, ih, hm, if_true, List.mem_cons, or_true]
        · simp only [recordIn, h, if_false, List.map_cons, ih, hm, List.mem_cons, h', or_false,
            List.cons_append]

theorem nodup_recordIn {m : Measurement} {xs : List Measurement}
    (h : (xs.map (·.server)).Nodup)
    : ((recordIn m xs).map (·.server)).Nodup := by
  rw [recordIn_servers]
  split
  · exact h
  · next hm =>
    refine List.nodup_append.2 ⟨h, by simp, ?_⟩
    intro a ha b hb
    rw [List.mem_singleton] at hb
    subst hb
    exact fun e => hm (e ▸ ha)

def empty : Ledger := ⟨[], by simp⟩

instance : Inhabited Ledger := ⟨empty⟩

def record (l : Ledger) (m : Measurement) : Ledger :=
  ⟨recordIn m l.measurements, nodup_recordIn l.distinct⟩

/-- The ledger of measurements that came one after the other. -/
def ofList (xs : List Measurement) : Ledger :=
  xs.foldl record empty

def find? (l : Ledger) (server : Server) : Option Measurement :=
  lookup server l.measurements

/-- Puts a measurement in, and gives the one that the ledger keeps: the measurement that is
there, if the new one is older, and then the ledger stays as it is. -/
def enter (l : Ledger) (m : Measurement) : Measurement × Ledger :=
  match l.find? m.server with
  | none => (m, l.record m)
  | some old =>
      if m.time.microseconds < old.time.microseconds then (old, l) else (m, l.record m)

/-- Records a latency that is measured at the present time, or at the time that a clock
showed. -/
def report (l : Ledger) (server : Server) (latency : Json) (time : Option Timestamp)
    (now : Instant) : Except RecordFault (Measurement × Ledger) :=
  match Measurement.reported server latency time now with
  | .error fault => .error fault
  | .ok m => .ok (l.enter m)

def size (l : Ledger) : Nat := l.measurements.length

/-- Recording in a list gives the server the newer measurement. -/
theorem lookup_recordIn (m : Measurement) (xs : List Measurement)
    : lookup m.server (recordIn m xs)
      = some (match lookup m.server xs with
        | none => m
        | some old => newer old m) := by
  induction xs with
  | nil => simp [recordIn, lookup]
  | cons old rest ih =>
      by_cases h : old.server = m.server
      · simp [recordIn, lookup, h, newer_server h]
      · simp [recordIn, lookup, h, ih]

/-- Recording in a list leaves the other servers alone. -/
theorem lookup_recordIn_of_ne {m : Measurement} {server : Server} (xs : List Measurement)
    (h : server ≠ m.server)
    : lookup server (recordIn m xs) = lookup server xs := by
  induction xs with
  | nil => simp [recordIn, lookup, Ne.symm h]
  | cons old rest ih =>
      by_cases ho : old.server = m.server
      · have : (newer old m).server = old.server := newer_server ho
        simp [recordIn, lookup, ho, this, Ne.symm h]
      · simp [recordIn, lookup, ho, ih]

/-- After recording, the server has the newer of its two measurements. -/
theorem find?_record (l : Ledger) (m : Measurement)
    : (l.record m).find? m.server
      = some (match l.find? m.server with
        | none => m
        | some old => newer old m) :=
  lookup_recordIn m l.measurements

theorem find?_record_of_ne {l : Ledger} {m : Measurement} {server : Server}
    (h : server ≠ m.server)
    : (l.record m).find? server = l.find? server :=
  lookup_recordIn_of_ne l.measurements h

end Ledger

/-- Why the age of a measurement cannot be judged. -/
inductive AgeFault where
  /-- The present time lies outside the years 1 to 9999 when it is taken in universal time. -/
  | timeOutOfRange
  | span (fault : SpanFault)
deriving DecidableEq, Repr

def AgeFault.message : AgeFault → String
  | .timeOutOfRange => Instant.outOfRange
  | .span fault => fault.message

/-- The server has a measurement that is not older than the greatest age. The present time and
the greatest age are looked at only if there is a measurement. -/
def Ledger.isFresh (l : Ledger) (server : Server) (maxAge : Seconds) (now : Timestamp)
    : Except AgeFault Bool :=
  match l.find? server with
  | none => .ok false
  | some m =>
      match now.instant? with
      | none => .error .timeOutOfRange
      | some now =>
          match maxAge.toMicroseconds with
          | .error fault => .error (.span fault)
          | .ok span => .ok (now.microseconds - m.time.microseconds ≤ span)

end NameserverAudit
