import NameserverAudit.Verdict.Basic
import NameserverAudit.Json.Printer

/-!
The results of a pass as JSON: the failed domains, or all of them, in the order of the domain
list; and a summary that counts domains and anomalies.
-/

namespace NameserverAudit.Results

def selected (includeAll : Bool) (verdicts : List Verdict) : List Verdict :=
  verdicts.filter fun v => includeAll || !v.success

/-- A name that marks an internal field, which no report shows. -/
def isInternal (name : String) : Bool :=
  "_sa".toList.isPrefixOf name.toList

mutual

/-- A value without its internal fields, at any depth. -/
def shown : Json → Json
  | .array items => .array (shownItems items)
  | .object fields => .object (shownFields fields)
  | v => v

def shownItems : List Json → List Json
  | [] => []
  | v :: rest => shown v :: shownItems rest

/-- The fields that are not internal, themselves without internal fields. -/
def shownFields : List (String × Json) → List (String × Json)
  | [] => []
  | (name, v) :: rest =>
      if isInternal name then shownFields rest else (name, shown v) :: shownFields rest

end

/-- The object of a verdict as a report shows it. -/
def object (v : Verdict) : Json :=
  shown v.toJson

def toJson (includeAll : Bool) (verdicts : List Verdict) : Json :=
  shown (.array ((selected includeAll verdicts).map object))

/-- The results as written: one array and a line end. -/
def text (includeAll : Bool) (verdicts : List Verdict) : String :=
  (toJson includeAll verdicts).render ++ "\n"

/-- Adds one to the count of a name; a new name comes last. -/
def tally (name : String) : List (String × Nat) → List (String × Nat)
  | [] => [(name, 1)]
  | (key, n) :: rest => if key = name then (key, n + 1) :: rest else (key, n) :: tally name rest

/-- How often each anomaly was found, in the order in which they were found first. -/
def flagCounts (verdicts : List Verdict) : List (String × Nat) :=
  (verdicts.flatMap fun v => v.flags.map Anomaly.name).foldl (fun out name => tally name out) []

def failedCount (verdicts : List Verdict) : Nat :=
  verdicts.countP fun v => !v.success

def summary (verdicts : List Verdict) : Json :=
  let failed := failedCount verdicts
  .object [
    ("domains", .int verdicts.length),
    ("passed", .int (verdicts.length - failed)),
    ("failed", .int failed),
    ("flags", .object ((flagCounts verdicts).map fun entry => (entry.1, .int entry.2)))]

end NameserverAudit.Results
