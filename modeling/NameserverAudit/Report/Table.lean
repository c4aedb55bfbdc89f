import NameserverAudit.Report.Advice
import NameserverAudit.Report.Results

/-!
Tables of a pass: a row for each anomaly of a domain, the anomalies by frequency, and the
failing domains by the number of their anomalies. Rows are ordered by falling count and then by
name. The plain-text form puts every column flush right.
-/

namespace NameserverAudit

structure Finding where
  domain : String
  flag : String
  reason : String
  advice : String
deriving DecidableEq, Repr

structure FlagCount where
  flag : String
  count : Nat
deriving DecidableEq, Repr

/-- A failing domain, the number of its anomalies and their names. -/
structure FailingDomain where
  domain : String
  count : Nat
  breakdown : String
deriving DecidableEq, Repr

namespace Table

/-- The rows of one verdict: one for each anomaly, or a single one if the domain passed. -/
def findingsOf (v : Verdict) : List Finding :=
  if v.success then [⟨v.domain, Advice.passed, "", Advice.forName Advice.passed⟩]
  else
    (v.flags.zip v.reasons).map fun (flag, reason) =>
      ⟨v.domain, flag.name, reason, Advice.forName flag.name⟩

def findings (verdicts : List Verdict) : List Finding :=
  verdicts.flatMap findingsOf

def broken (rows : List Finding) : List Finding :=
  rows.filter fun r => r.flag ≠ Advice.passed

def before (count₁ : Nat) (name₁ : String) (count₂ : Nat) (name₂ : String) : Bool :=
  count₂ < count₁ || (count₁ == count₂ && decide (name₁ ≤ name₂))

def flagCounts (rows : List Finding) : List FlagCount :=
  let flags := (broken rows).map (·.flag)
  let counts := flags.eraseDups.map fun flag => (⟨flag, flags.count flag⟩ : FlagCount)
  counts.mergeSort fun a b => before a.count a.flag b.count b.flag

/-- The failing domains by the number of their anomalies. -/
def failingDomains (rows : List Finding) : List FailingDomain :=
  let rows := broken rows
  let domains := (rows.map (·.domain)).eraseDups.map fun domain =>
    let flags := (rows.filter fun r => r.domain = domain).map (·.flag)
    (⟨domain, flags.length, "; ".intercalate flags⟩ : FailingDomain)
  domains.mergeSort fun a b => before a.count a.domain b.count b.domain

/-- A column of a plain-text table: its head, its cells, and the blanks before it. -/
structure Column where
  lead : Nat
  head : String
  cells : List String

def flushRight (width : Nat) (s : String) : String :=
  String.ofList (List.replicate (width - s.length) ' ') ++ s

def Column.width (c : Column) : Nat :=
  (c.head :: c.cells).foldl (fun w s => max w s.length) 0

def Column.lines (c : Column) : List String :=
  (c.head :: c.cells).map fun s =>
    String.ofList (List.replicate c.lead ' ') ++ flushRight c.width s

/-- The columns side by side, a line for the heads and one for each row. -/
def plain (columns : List Column) : String :=
  let height := columns.foldl (fun h c => max h (c.cells.length + 1)) 0
  "\n".intercalate ((List.range height).map fun i =>
    "".intercalate (columns.map fun c => c.lines.getD i ""))

/-- The plain text of the anomalies by frequency. -/
def flagCountsText (counts : List FlagCount) : String :=
  plain [
    ⟨0, "flag", counts.map (·.flag)⟩,
    ⟨2, "count", counts.map fun c => toString c.count⟩]

def failingDomainsText (domains : List FailingDomain) : String :=
  plain [
    ⟨0, "domain", domains.map (·.domain)⟩,
    ⟨2, "count", domains.map fun d => toString d.count⟩,
    ⟨1, "flag_breakdown", domains.map (·.breakdown)⟩]

def passSummary (verdicts : List Verdict) : String :=
  let rows := findings verdicts
  let counts := flagCounts rows
  s!"\n== {verdicts.length} domains | Failed: {Results.failedCount verdicts} ==\n"
    ++ (if counts.isEmpty then "No findings.\n"
        else
          flagCountsText counts ++ "\n" ++ failingDomainsText (failingDomains rows) ++ "\n")

end Table

end NameserverAudit
