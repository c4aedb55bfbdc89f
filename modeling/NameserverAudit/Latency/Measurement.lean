import NameserverAudit.Address.Literal
import NameserverAudit.Json.Display
import NameserverAudit.Name.Canonical
import NameserverAudit.Number.Reading
import NameserverAudit.Server
import NameserverAudit.Time.Iso

/-!
Measurements of the latency of a server: how long it took to answer, in milliseconds, or that
it did not answer, and when this was measured. As a value of JSON a measurement has four fields,
with the latency rounded to three places; a value is read back by taking names and addresses in
their canonical form.
-/

namespace NameserverAudit

/-- The last known latency of a server; no latency means that it did not answer. -/
structure Measurement where
  server : Server
  latency : Option Double
  time : Instant
deriving DecidableEq, Repr

inductive LatencyFault where
  | notANumber (kind : String)
  | unreadable (text : String)
  /-- The integer is beyond the range of floating-point numbers. -/
  | tooLarge
deriving DecidableEq, Repr

def LatencyFault.message : LatencyFault → String
  | .notANumber kind => s!"float() argument must be a string or a real number, not '{kind}'"
  | .unreadable text => s!"could not convert string to float: {Text.quoted text}"
  | .tooLarge => "int too large to convert to float"

/-- The wording for an instant outside the years 1 to 9999. -/
def Instant.outOfRange : String := "date value out of range"

/-- The latency that a value stands for; null stands for no answer, and a text is read as a
number. -/
def Measurement.latencyOf : Json → Except LatencyFault (Option Double)
  | .null => .ok none
  | .bool b => .ok (some (Double.ofInt (if b then 1 else 0)))
  | .int n =>
      let x := Double.ofInt n
      if x.isFinite then .ok (some x) else .error .tooLarge
  | .float x => .ok (some x)
  | .str s =>
      match Reading.double? s with
      | some x => .ok (some x)
      | none => .error (.unreadable s)
  | v => .error (.notANumber v.kind)

/-- Why a latency is not recorded. -/
inductive RecordFault where
  | latency (fault : LatencyFault)
  | timeOutOfRange
  | time (fault : Timestamp.Incomparable)
deriving DecidableEq, Repr

def RecordFault.message : RecordFault → String
  | .latency fault => fault.message
  | .timeOutOfRange => Instant.outOfRange
  | .time fault => fault.message

/-- The measurement that is meant by a latency and the time that a clock showed; the present time
is meant if none is given. -/
def Measurement.reported (server : Server) (latency : Json) (time : Option Timestamp)
    (now : Instant) : Except RecordFault Measurement :=
  match latencyOf latency with
  | .error fault => .error (.latency fault)
  | .ok latency =>
      match (time.getD (.utc now)).instant? with
      | none => .error .timeOutOfRange
      | some time => .ok ⟨server, latency, time⟩

inductive FieldFault where
  | address (refusal : String)
  | latency (fault : LatencyFault)
  | time (fault : Iso.Fault)
deriving DecidableEq, Repr

def FieldFault.message : FieldFault → String
  | .address refusal => refusal
  | .latency fault => fault.message
  | .time fault => fault.message

inductive EntryFault where
  | notAnObject (kind : String)
  | missing (key : String)
  /-- A field of the entry, shown in full, has no meaning. -/
  | invalid (entry : String) (fault : FieldFault)
  /-- The latency is an integer beyond the range of floating-point numbers. -/
  | latencyTooLarge
  | timeOutOfRange
deriving DecidableEq, Repr

def EntryFault.message : EntryFault → String
  | .notAnObject kind => s!"cache entry must be an object, got {kind}"
  | .missing key => s!"cache entry is missing {Text.quoted key}"
  | .invalid entry fault => s!"invalid cache entry {entry}: {fault.message}"
  | .latencyTooLarge => LatencyFault.tooLarge.message
  | .timeOutOfRange => Instant.outOfRange

namespace Measurement

def reachable (m : Measurement) : Bool :=
  m.latency.isSome

/-- The latency as it is written: rounded to three places. -/
def writtenLatency (m : Measurement) : Option Double :=
  m.latency.map (·.roundPlaces 3)

def toJson (m : Measurement) : Json :=
  .object [
    ("server_name", .str m.server.name),
    ("address", .str m.server.address),
    ("latency_ms",
      match m.writtenLatency with
      | none => .null
      | some x => .float x),
    ("measured_at", .str m.time.text)]

def fieldText (entry : Json) (key : String) : Except EntryFault String :=
  match entry.field? key with
  | none => .error (.missing key)
  | some v => .ok v.asText

def serverOf (entry : Json) : Except EntryFault Server := do
  let name ← fieldText entry "server_name"
  let address ← fieldText entry "address"
  match canonicalAddress address with
  | .error refusal => .error (.invalid entry.display (.address refusal))
  | .ok a => .ok ⟨canonicalName name, a⟩

/-- The latency that an entry gives; a missing one is like null. -/
def entryLatency (entry : Json) : Except EntryFault (Option Double) :=
  match latencyOf ((entry.field? "latency_ms").getD .null) with
  | .ok latency => .ok latency
  | .error .tooLarge => .error .latencyTooLarge
  | .error fault => .error (.invalid entry.display (.latency fault))

def entryTime (entry : Json) : Except EntryFault Instant := do
  let text ← fieldText entry "measured_at"
  match Iso.parse text with
  | .error fault => .error (.invalid entry.display (.time fault))
  | .ok shown =>
      match shown.instant? with
      | some t => .ok t
      | none => .error .timeOutOfRange

def ofJson (entry : Json) : Except EntryFault Measurement :=
  match entry with
  | .object _ => do
      let server ← serverOf entry
      let latency ← entryLatency entry
      let time ← entryTime entry
      return ⟨server, latency, time⟩
  | v => .error (.notAnObject v.kind)

end Measurement

end NameserverAudit
