import NameserverAudit.Address.Printer
import NameserverAudit.Number.Decimal
import NameserverAudit.Zone.RecordType
import NameserverAudit.Name.DomainName

/-!
The messages that go between this side and the nameservers: what is sent, and what comes back,
which is a response with its three sections of record sets, or a failure.
-/

namespace NameserverAudit

inductive Transport where
  | udp
  | tcp
deriving DecidableEq, Repr

def Transport.name : Transport → String
  | .udp => "udp"
  | .tcp => "tcp"

structure Rcode where
  code : Nat
deriving DecidableEq, Repr

namespace Rcode

def noError : Rcode := ⟨0⟩

def nxDomain : Rcode := ⟨3⟩

def names : List (String × Nat) := [
  ("NOERROR", 0), ("FORMERR", 1), ("SERVFAIL", 2), ("NXDOMAIN", 3), ("NOTIMP", 4),
  ("REFUSED", 5), ("YXDOMAIN", 6), ("YXRRSET", 7), ("NXRRSET", 8), ("NOTAUTH", 9),
  ("NOTZONE", 10), ("DSOTYPENI", 11), ("BADVERS", 16), ("BADKEY", 17), ("BADTIME", 18),
  ("BADMODE", 19), ("BADNAME", 20), ("BADALG", 21), ("BADTRUNC", 22), ("BADCOOKIE", 23)]

def text (r : Rcode) : String :=
  match names.find? fun entry => entry.2 = r.code with
  | some entry => entry.1
  | none => toString r.code

/-- The code with a name or a number, whatever the case of the name. -/
def ofText? (s : String) : Option Rcode :=
  match names.find? fun entry => entry.1 = s.toUpper with
  | some entry => some ⟨entry.2⟩
  | none => if s.toUpper = "BADSIG" then some ⟨16⟩ else s.toNat?.map Rcode.mk

end Rcode

/-- What stands in an address record whose class is not that of the internet. -/
inductive ForeignAddress where
  /-- The number that a record of the class Chaos has for an address. -/
  | number (n : Nat)
  /-- Data that are not taken apart. -/
  | data
deriving DecidableEq, Repr

/-- Why there is no address to be read off the record. -/
def ForeignAddress.message : ForeignAddress → String
  | .number 0 => "'' does not appear to be an IPv4 or IPv6 address"
  | .number _ => "'int' object has no attribute 'strip'"
  | .data => "'GenericRdata' object has no attribute 'address'"

inductive Content where
  | nameservers (targets : List DomainName)
  | ipv4 (addresses : List Ipv4)
  | ipv6 (addresses : List Ipv6)
  /-- Address records of another class than that of the internet. -/
  | foreign (family : Family) (records : List ForeignAddress)
  | other (type : RecordType)
deriving DecidableEq, Repr

namespace Content

/-- The names without those that came before, whatever their case. -/
def distinctNames (seen : List DomainName) : List DomainName → List DomainName
  | [] => []
  | n :: rest =>
      if seen.any n.same then distinctNames seen rest
      else n :: distinctNames (n :: seen) rest

def ofNameservers (targets : List DomainName) : Content :=
  .nameservers (distinctNames [] targets)

/-- The addresses of version 4 of a list, each once. -/
def ofIpv4 (addresses : List Ipv4) : Content :=
  .ipv4 addresses.eraseDups

/-- The addresses of version 6 of a list, each once. -/
def ofIpv6 (addresses : List Ipv6) : Content :=
  .ipv6 addresses.eraseDups

/-- The canonical texts of the addresses of both versions. -/
def addresses : Content → List String
  | .ipv4 xs => xs.map fun a => (Address.v4 a).text
  | .ipv6 xs => xs.map fun a => (Address.v6 a none).text
  | _ => []

/-- The first address record of another class. -/
def foreign? : Content → Option ForeignAddress
  | .foreign _ records => records.head?
  | _ => none

def type : Content → RecordType
  | .nameservers _ => .ns
  | .ipv4 _ | .foreign .ipv4 _ => .a
  | .ipv6 _ | .foreign .ipv6 _ => .aaaa
  | .other t => t

end Content

structure RecordSet where
  owner : DomainName
  content : Content
deriving DecidableEq, Repr

structure Response where
  authoritative : Bool
  truncated : Bool
  rcode : Rcode
  answer : List RecordSet
  authority : List RecordSet
  additional : List RecordSet
deriving DecidableEq, Repr

inductive Failure where
  | timeout
  /-- What came was malformed; a failure of this sort may be due to an extension. -/
  | malformed (kind text : String)
  | other (kind text : String)
deriving DecidableEq, Repr

inductive Reply where
  | response (r : Response)
  | failed (f : Failure)
deriving DecidableEq, Repr

structure Sent where
  transport : Transport
  server : String
  name : DomainName
  type : RecordType
  /-- The server is asked to find the answer elsewhere if it has none. -/
  recursion : Bool
  /-- The payload that the extension announces; without the extension there is none. -/
  payload : Option Int
  port : Int
  timeout : Double
deriving DecidableEq, Repr

/-- A message in one line; what is as usual is left out. -/
def Sent.line (m : Sent) : String :=
  let payload :=
    match m.payload with
    | none => " noedns"
    | some n => if n = 1232 then "" else s!" payload={n}"
  let recursion := if m.recursion then " rd" else ""
  let port := if m.port = 53 then "" else s!" port={m.port}"
  let timeout := if m.timeout = .ofInt 5 then "" else s!" timeout={m.timeout.text}"
  s!"{m.transport.name} {m.server} {m.name.text} {m.type.name}" ++ payload ++ recursion ++ port
    ++ timeout

end NameserverAudit
