import NameserverAudit.Verdict.Expected

/-!
What the authoritative servers of a domain publish, and the verdict on it. An axis is judged
only if it is checked: it must have been answered, and the published set must equal the
expected one. The anomalies stand in a fixed order, nameservers before addresses, and none is
reported twice.
-/

namespace NameserverAudit

/-- What the authoritative servers of a domain publish. An axis is not answered when no server
responded on it, which is not the same as an empty set. -/
structure Published where
  nameservers : TextSet
  addresses : TextSet
  nameserversAnswered : Bool
  addressesAnswered : Bool
  error : Option String
deriving DecidableEq

namespace Published

/-- Nothing was found out, for the given reason. -/
def failed (error : String) : Published :=
  ⟨.empty, .empty, false, false, some error⟩

def toJson (p : Published) : Json :=
  .object [
    ("nameservers", Json.ofStrings p.nameservers.toList),
    ("ips", Json.ofStrings p.addresses.toList),
    ("ns_answered", .bool p.nameserversAnswered),
    ("ips_answered", .bool p.addressesAnswered),
    ("error", Json.ofString? p.error)]

end Published

inductive Anomaly where
  | nameserversDiffer
  | addressesDiffer
  | unresolved
deriving DecidableEq, Repr

namespace Anomaly

def name : Anomaly → String
  | .nameserversDiffer => "ResolveNsNotMatch"
  | .addressesDiffer => "ResolveIpNotMatch"
  | .unresolved => "ResolutionFailed"

def ofName? (s : String) : Option Anomaly :=
  [nameserversDiffer, addressesDiffer, unresolved].find? fun a => a.name = s

def reason : Anomaly → String
  | .nameserversDiffer => "did not return the correct nameservers"
  | .addressesDiffer => "did not return the correct ips"
  | .unresolved => "could not resolve authoritative records"

end Anomaly

structure Verdict where
  domain : String
  success : Bool
  reasons : List String
  flags : List Anomaly
  nameservers : List String
  addresses : List String
deriving DecidableEq, Repr

namespace Verdict

/-- The anomaly of one axis, if it is checked and not as expected. -/
def judge (expected : Option TextSet) (answered : Bool) (found : TextSet)
    (mismatch : Anomaly) : Option Anomaly :=
  match expected with
  | none => none
  | some values =>
      if !answered then some .unresolved
      else if found = values then none
      else some mismatch

/-- A published address in canonical form; a text that is no address literal is only trimmed
and lower-cased, so that it still differs from every address. -/
def publishedAddress (raw : String) : String :=
  (canonicalAddress? raw).getD (String.ofList (Text.lower (Text.trim raw.toList)))

/-- The anomalies of both axes, without repetition. -/
def anomalies (names addresses : Option Anomaly) : List Anomaly :=
  match names, addresses with
  | none, none => []
  | some a, none => [a]
  | none, some b => [b]
  | some a, some b => if a = b then [a] else [a, b]

/-- The verdict on what is published, given what is expected. -/
def of (expected : Expected) (published : Published) : Verdict :=
  let names := TextSet.ofList (published.nameservers.toList.map canonicalName)
  let addresses := TextSet.ofList (published.addresses.toList.map publishedAddress)
  let flags :=
    anomalies
      (judge expected.nameservers published.nameserversAnswered names .nameserversDiffer)
      (judge expected.addresses published.addressesAnswered addresses .addressesDiffer)
  { domain := expected.domain
    success := flags.isEmpty
    reasons := flags.map Anomaly.reason
    flags
    nameservers := names.toList
    addresses := addresses.toList }

def toJson (v : Verdict) : Json :=
  .object [
    ("domain_name", .str v.domain),
    ("success", .bool v.success),
    ("reason", Json.ofStrings v.reasons),
    ("flags", Json.ofStrings (v.flags.map Anomaly.name)),
    ("nameservers", Json.ofStrings v.nameservers),
    ("ips", Json.ofStrings v.addresses)]

end Verdict

end NameserverAudit
