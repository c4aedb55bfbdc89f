import NameserverAudit.Disk
import NameserverAudit.Json.Printer
import NameserverAudit.Json.Reader
import NameserverAudit.Latency.Preference

/-!
Ledgers as text and in files: a list of entries, the preferred server's first. A missing file
may stand for an empty ledger.
-/

namespace NameserverAudit

inductive ArchiveFault where
  | file (fault : FileFault)
  | notText (source : String) (fault : Text.Utf8.Fault)
  | notJson (source : String) (fault : Json.Fault)
  /-- An integer of the text has too many digits. -/
  | integerTooLong (digits : Nat)
  | notAList (source : String)
  | entry (fault : EntryFault)
deriving DecidableEq, Repr

def ArchiveFault.message : ArchiveFault → String
  | .file fault => fault.message
  | .notText source fault => Disk.notText source fault
  | .notJson source fault => s!"{source}: invalid JSON: {fault.message}"
  | .integerTooLong digits => (Json.Fault.integerTooLong digits).message
  | .notAList source => s!"{source}: expected a JSON list of cache entries"
  | .entry fault => fault.message

namespace Ledger

def toJson (l : Ledger) : Json :=
  .array (l.listing.map Measurement.toJson)

def text (l : Ledger) : String :=
  l.toJson.render

/-- The measurements of entries, up to the first entry that is none. -/
def measurementsOf : List Json → Except EntryFault (List Measurement)
  | [] => .ok []
  | entry :: rest => do
      let m ← Measurement.ofJson entry
      let more ← measurementsOf rest
      return m :: more

def ofJson (source : String) : Json → Except ArchiveFault Ledger
  | .array entries =>
      match measurementsOf entries with
      | .error fault => .error (.entry fault)
      | .ok xs => .ok (ofList xs)
  | _ => .error (.notAList source)

def ofText (source text : String) : Except ArchiveFault Ledger :=
  match Json.parse text with
  | .error (.integerTooLong digits) => .error (.integerTooLong digits)
  | .error fault => .error (.notJson source fault)
  | .ok v => ofJson source v

/-- The ledger in the file at a path. If a missing file is allowed, it stands for the empty
ledger. -/
def load (disk : Disk) (path : String) (missingAllowed : Bool) : Except ArchiveFault Ledger :=
  match disk.read path with
  | .error (.notFound p) => if missingAllowed then .ok empty else .error (.file (.notFound p))
  | .error fault => .error (.file fault)
  | .ok bytes =>
      match Disk.decodeText bytes with
      | .error fault => .error (.notText path fault)
      | .ok text => ofText path text

def save (l : Ledger) (disk : Disk) (path : String) : Except FileFault Disk :=
  disk.write path (l.text ++ "\n")

end Ledger

structure LatencyRow where
  name : String
  address : String
  latency : Option Double
  time : String
deriving DecidableEq, Repr

namespace LatencyRow

/-- The row of a measurement; an undefined latency is like none. -/
def ofMeasurement (m : Measurement) : LatencyRow :=
  ⟨m.server.name, m.server.address,
    m.writtenLatency.filter fun x => !x.isNaN, m.time.text⟩

/-- The first row stands strictly before the second one: by latency, missing ones last, then by
name and by address. -/
def before (r s : LatencyRow) : Bool :=
  let byServer := Server.before ⟨r.name, r.address⟩ ⟨s.name, s.address⟩
  match r.latency, s.latency with
  | some x, some y => x.lt y || (x.same y && byServer)
  | some _, none => true
  | none, some _ => false
  | none, none => byServer

def table (ms : List Measurement) : List LatencyRow :=
  (ms.map ofMeasurement).mergeSort fun r s => !s.before r

end LatencyRow

end NameserverAudit
