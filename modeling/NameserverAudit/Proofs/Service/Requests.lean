import NameserverAudit.Proofs.Json.RoundTrip
import NameserverAudit.Proofs.Report.Results
import NameserverAudit.Proofs.Text.Utf8
import NameserverAudit.Proofs.Verdict.Grammar
import NameserverAudit.Service.Session

/-! Requests that ask for one domain, by parameters or by a list in the body. Main statement: both
of them state the same expectation, or are refused for the same fault.
-/

namespace NameserverAudit.Service

open Expected (HasAxis)

-----------------------------------------------------------------------------------------
-- What a request asks for
-----------------------------------------------------------------------------------------

/-- The request is for the verdict on one domain, with these expectations. -/
structure Request.AsksOne (r : Request) (domain : String) (ns ip : Option (List String))
    : Prop where
  errand : r.errand = .auditOne
  domain : r.value? "domain" = some domain
  names : r.values? "ns" = ns
  addresses : r.values? "ip" = ip

/-- The request is for all results of a list whose one entry has this domain and these
expectations; an expectation may be missing or null.
-/
structure Request.AsksList (r : Request) (domain : String) (ns ip : Option (List String))
    : Prop where
  errand : r.errand = .auditList
  all : r.wantsAll = .ok true
  content : ∃ entry,
    r.content = .ok (some (.array [entry]))
    ∧ entry.field? "domain_name" = some (.str domain)
    ∧ HasAxis entry "ns" ns ∧ HasAxis entry "ip" ip

namespace Request

/-- The request for one domain, with its expectations as parameters. -/
def ofParameters (domain : String) (ns ip : Option (List String)) : Request where
  verb := "GET"
  path := "/audit"
  parameters :=
    ("domain", domain) :: (ns.getD []).map (Prod.mk "ns") ++ (ip.getD []).map (Prod.mk "ip")
  body := []

/-- The entry of a domain list; an expectation that is not stated is null. -/
def entry (domain : String) (ns ip : Option (List String)) : Json :=
  .object [
    ("domain_name", .str domain),
    ("ns", (ns.map Json.ofStrings).getD .null),
    ("ip", (ip.map Json.ofStrings).getD .null)]

/-- The request for all results of a list of one entry. -/
def ofEntry (domain : String) (ns ip : Option (List String)) : Request where
  verb := "POST"
  path := "/audit"
  parameters := [("all", "true")]
  body := Text.Utf8.encode (Json.array [entry domain ns ip]).render.toList

theorem trimmedPath_audit {r : Request} (path : r.path = "/audit")
    : r.trimmedPath = "/audit" := by
  rw [trimmedPath, path]
  decide +kernel

/-- The texts of a parameter that is given, of which there is at least one. -/
theorem values?_eq {r : Request} {name : String} {texts : Option (List String)}
    (given : texts ≠ some []) (same : r.values name = texts.getD [])
    : r.values? name = texts := by
  rw [values?, same]
  rcases texts with - | - | ⟨first, rest⟩
  · rfl
  · exact absurd rfl given
  · rfl

/-- Parameters ask for one domain; a parameter that is given has some text. -/
theorem asksOne_ofParameters (domain : String) {ns ip : Option (List String)}
    (names : ns ≠ some []) (addresses : ip ≠ some [])
    : (ofParameters domain ns ip).AsksOne domain ns ip where
  errand := by
    rw [Request.errand, trimmedPath_audit rfl]
    rfl
  domain := by simp [value?, values, ofParameters, List.filter_map, Function.comp_def]
  names := values?_eq names (by
    simp [values, ofParameters, List.filter_map, Function.comp_def])
  addresses := values?_eq addresses (by
    simp [values, ofParameters, List.filter_map, Function.comp_def])

theorem hasAxis_entry {domain : String} {ns ip : Option (List String)}
    : HasAxis (entry domain ns ip) "ns" ns ∧ HasAxis (entry domain ns ip) "ip" ip := by
  constructor
  · cases ns with
    | none => exact .null rfl
    | some xs => exact .listed rfl
  · cases ip with
    | none => exact .null rfl
    | some xs => exact .listed rfl

theorem printable_entry (domain : String) (ns ip : Option (List String))
    : (Json.array [entry domain ns ip]).Printable := by
  have axis (xs : Option (List String)) : ((xs.map Json.ofStrings).getD .null).Printable := by
    cases xs with
    | none => trivial
    | some xs => exact Json.ofStrings_printable xs
  have names : ["domain_name", "ns", "ip"].Nodup := by decide
  exact ⟨⟨names, trivial, axis ns, axis ip, trivial⟩, trivial⟩

/-- A body with the text of a list is read as this list: its first character, a bracket, is none
that is left out.
-/
theorem content_of_render {r : Request} {items : List Json}
    (printable : (Json.array items).Printable)
    (body : r.body = Text.Utf8.encode (Json.array items).render.toList)
    : r.content = .ok (some (.array items)) := by
  obtain ⟨rest, starts⟩ : ∃ rest, (Json.array items).render.toList = '[' :: rest := by
    rw [Json.render, String.toList_ofList, Json.renderAt]
    cases Json.itemTexts 1 items <;> exact ⟨_, rfl⟩
  have marked : unmarked (Json.array items).render.toList = (Json.array items).render.toList := by
    rw [starts, unmarked, if_neg (by decide)]
  have nonempty : r.body.isEmpty = false := by
    rw [body, starts]
    rfl
  rw [content, nonempty, body]
  simp only [Text.Utf8.decode_encode, marked, String.ofList_toList, Json.parse_render printable]
  rfl

theorem asksList_ofEntry (domain : String) (ns ip : Option (List String))
    : (ofEntry domain ns ip).AsksList domain ns ip := by
  constructor
  case errand =>
    rw [Request.errand, trimmedPath_audit rfl]
    rfl
  case all =>
    have yes : boolean? "true" = some true := by decide +kernel
    have given : (ofEntry domain ns ip).value? "all" = some "true" := by
      simp [value?, values, ofEntry]
    rw [wantsAll, given]
    dsimp only
    rw [yes]
  case content =>
    have read := content_of_render (r := ofEntry domain ns ip) (printable_entry domain ns ip)
      (by rw [ofEntry])
    exact ⟨_, read, rfl, hasAxis_entry⟩

end Request

-----------------------------------------------------------------------------------------
-- What is expected
-----------------------------------------------------------------------------------------

/-- An entry is read as the expectation that the parameters of a request state, or refused for the
same fault.
-/
theorem ofEntry_eq_expected {r : Request} {entry : Json} {domain : String}
    {ns ip : Option (List String)} (asks : r.AsksOne domain ns ip) (number : Nat)
    (given : entry.field? "domain_name" = some (.str domain)) (names : HasAxis entry "ns" ns)
    (addresses : HasAxis entry "ip" ip)
    : Expected.ofEntry number entry = Session.expected domain r := by
  cases hostStyle : Host.domain? domain with
  | none =>
      obtain ⟨fields, rfl⟩ := Expected.exists_object_of_field? given
      simp only [Expected.ofEntry, given, hostStyle, Session.expected]
  | some host =>
      rw [Expected.ofEntry_of_domain given hostStyle, Expected.axis_eq_ok_iff.2 names,
        Expected.axis_eq_ok_iff.2 addresses]
      simp only [Session.expected, hostStyle, asks.names, asks.addresses]
      rfl

/-- A list of one entry is read as what its entry is read as. -/
theorem ofJson_singleton (entry : Json)
    : Expected.ofJson (.array [entry]) = (Expected.ofEntry 0 entry).map fun e => [e] := by
  simp only [Expected.ofJson, Expected.ofEntries]
  cases Expected.ofEntry 0 entry <;> rfl

end NameserverAudit.Service
