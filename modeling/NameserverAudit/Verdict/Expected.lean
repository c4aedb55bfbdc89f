import NameserverAudit.Address.Literal
import NameserverAudit.Name.Host
import NameserverAudit.Text.TextSet
import NameserverAudit.Json.Reader

/-!
What an operator expects of a domain: its nameservers, its addresses, both or neither, and the
domain lists in which expectations are given. An axis that is not given is not checked; an
empty list expects that nothing is published.
-/

namespace NameserverAudit

/-- What is expected of one domain. An axis without a set is not checked. -/
structure Expected where
  domain : String
  nameservers : Option TextSet
  addresses : Option TextSet
deriving DecidableEq

inductive ListFault where
  | notAnArray
  /-- The entry with this number is not an object. -/
  | notAnObject (entry : Nat)
  /-- The entry with this number has no text as its domain. -/
  | noDomain (entry : Nat)
  | badDomain (raw : String)
  /-- An axis is neither missing nor a list of texts. -/
  | badAxis (domain key : String)
  | badAddress (domain refusal : String)
deriving DecidableEq, Repr

def ListFault.message : ListFault → String
  | .notAnArray => "domain list must be a JSON array"
  | .notAnObject i => s!"entry {i} must be an object"
  | .noDomain i => s!"entry {i} is missing 'domain_name'"
  | .badDomain raw => Host.refusal (Text.quoted raw)
  | .badAxis domain key => s!"{domain}: '{key}' must be a list of strings or null"
  | .badAddress domain refusal => s!"{domain}: {refusal}"

namespace Expected

/-- The canonical texts of address literals, up to the first text that is none. -/
def canonicalAddresses : List String → Except String (List String)
  | [] => .ok []
  | raw :: rest =>
      match canonicalAddress raw with
      | .error refusal => .error refusal
      | .ok a =>
          match canonicalAddresses rest with
          | .error refusal => .error refusal
          | .ok more => .ok (a :: more)

/-- The expectation with the given names and address literals. -/
def create (domain : String) (names addresses : Option (List String))
    : Except ListFault Expected :=
  let nameservers := names.map fun xs => TextSet.ofList (xs.map canonicalName)
  match addresses with
  | none => .ok ⟨domain, nameservers, none⟩
  | some xs =>
      match canonicalAddresses xs with
      | .error refusal => .error (.badAddress domain refusal)
      | .ok ys => .ok ⟨domain, nameservers, some (TextSet.ofList ys)⟩

/-- An axis of an entry: missing or null, or a list of texts. -/
def axis (domain key : String) (entry : Json) : Except ListFault (Option (List String)) :=
  match entry.field? key with
  | none | some .null => .ok none
  | some (.array items) =>
      match Json.strings? items with
      | some xs => .ok (some xs)
      | none => .error (.badAxis domain key)
  | some _ => .error (.badAxis domain key)

def ofEntry (i : Nat) (entry : Json) : Except ListFault Expected :=
  match entry with
  | .object _ =>
      match entry.field? "domain_name" with
      | some (.str raw) =>
          match Host.domain? raw with
          | none => .error (.badDomain raw)
          | some domain =>
              match axis domain "ns" entry, axis domain "ip" entry with
              | .error fault, _ => .error fault
              | _, .error fault => .error fault
              | .ok names, .ok addresses => create domain names addresses
      | _ => .error (.noDomain i)
  | _ => .error (.notAnObject i)

/-- The expectations of entries, of which the first has the given number. -/
def ofEntries (i : Nat) : List Json → Except ListFault (List Expected)
  | [] => .ok []
  | entry :: rest =>
      match ofEntry i entry with
      | .error fault => .error fault
      | .ok e =>
          match ofEntries (i + 1) rest with
          | .error fault => .error fault
          | .ok more => .ok (e :: more)

def ofJson : Json → Except ListFault (List Expected)
  | .array entries => ofEntries 0 entries
  | _ => .error .notAnArray

def toJson (e : Expected) : Json :=
  let list : Option TextSet → Json
    | none => .null
    | some s => Json.ofStrings s.toList
  .object [("domain_name", .str e.domain), ("ns", list e.nameservers), ("ip", list e.addresses)]

end Expected

end NameserverAudit
