import NameserverAudit.Verdict.Basic

/-!
What to do about an anomaly.
-/

namespace NameserverAudit.Advice

/-- The name under which a domain without anomalies is listed. -/
def passed : String := "OK"

/-- The advice for a flag that has none of its own. -/
def general : String := "Review the domain's delegation and authoritative records."

def forAnomaly : Anomaly → String
  | .nameserversDiffer =>
      "The authoritative servers publish a different NS set than expected. Check the delegation "
        ++ "at the registrar and the NS records in the zone; an unexpected nameserver can mean a "
        ++ "hijacked or expired domain, or a migration that was not recorded in the domain list."
  | .addressesDiffer =>
      "The authoritative servers return different A/AAAA records than expected. Confirm the "
        ++ "records in the zone; if the change was intended, update the expected ip list."
  | .unresolved =>
      "No authoritative answer could be obtained. Check that the delegation exists, that the "
        ++ "nameservers are reachable over UDP/TCP 53, and that they answer authoritatively (AA=1)."

def forName (flag : String) : String :=
  if flag = passed then "No action needed."
  else
    match Anomaly.ofName? flag with
    | some a => forAnomaly a
    | none => general

end NameserverAudit.Advice
