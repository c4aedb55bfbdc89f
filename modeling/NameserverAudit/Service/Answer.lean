import NameserverAudit.Service.Request

/-!
The answers of the audit service, with their status and their body.
-/

namespace NameserverAudit.Service

inductive Answer where
  | found (body : Json)
  /-- The request is well-formed and asks for something that makes no sense. -/
  | senseless (detail : String)
  | malformed (flaws : List Flaw)
  | unavailable (detail : String)
  | unknownPath
  | wrongVerb

namespace Answer

def status : Answer → Nat
  | .found _ => 200
  | .senseless _ => 400
  | .malformed _ => 422
  | .unavailable _ => 503
  | .unknownPath => 404
  | .wrongVerb => 405

def ofDetail (detail : Json) : Json :=
  .object [("detail", detail)]

def body : Answer → Json
  | .found body => body
  | .senseless detail | .unavailable detail => ofDetail (.str detail)
  | .malformed flaws => ofDetail (.array (flaws.map Flaw.toJson))
  | .unknownPath => ofDetail (.str "Not Found")
  | .wrongVerb => ofDetail (.str "Method Not Allowed")

end Answer

end NameserverAudit.Service
