import NameserverAudit.Exchange.Query
import NameserverAudit.Latency.Preference
import NameserverAudit.Zone.Directory

/-!
What a walk down the name space is given, where it stands, and why it can end without an
answer. The walk stands at a cut: a zone and the servers to ask there, the preferred one first.
-/

namespace NameserverAudit

/-- A zone and the servers to ask there, the preferred one first. -/
structure Cut where
  zone : DomainName
  servers : List Server
deriving DecidableEq, Repr

inductive Stage where
  | zone (name : DomainName)
  /-- When the authoritative servers were asked for their records. -/
  | collection
deriving DecidableEq, Repr

def Stage.text : Stage → String
  | .zone name => name.canonicalText
  | .collection => "authoritative"

inductive Cause where
  /-- The directory has no root server of the wanted families. -/
  | noRoots
  | nobody
  | query (fault : QueryFault)
  /-- The server neither answers for the name nor refers to anybody. -/
  | lame (server : Server) (name : String)
  /-- No nameserver that the server refers to has an address. -/
  | noAddress (server : Server) (child : String)
  | loop
  | notAuthoritative (server : Server) (name : String)
  | noAuthority
deriving DecidableEq, Repr

def Cause.message : Cause → String
  | .noRoots => "no root server addresses for the enabled address families"
  | .nobody => "no servers to ask"
  | .query fault => fault.message
  | .lame server name => s!"lame answer from {server.text} for {name}"
  | .noAddress server child =>
      s!"{server.text} referred to {child} but no delegated nameserver has an address"
  | .loop => "referral loop"
  | .notAuthoritative server name => s!"{server.text} is not authoritative for {name}"
  | .noAuthority => "no authoritative servers"

/-- A walk that ended without an answer: no server at a stage was of any use. -/
structure Unresolved where
  stage : Stage
  cause : Cause
deriving DecidableEq, Repr

def Unresolved.message (u : Unresolved) : String :=
  s!"resolution failed at {u.stage.text}: {u.cause.message}"

/-- What a walk does not put up with: it ends at once. -/
inductive Refusal where
  | badName (fault : NameFault)
  | unknownFamily (family : UnknownFamily)
  | payload (fault : PayloadFault)
  /-- An address record has no address to read. -/
  | foreign (record : ForeignAddress)
deriving DecidableEq, Repr

inductive WalkFault where
  | unresolved (u : Unresolved)
  | refused (r : Refusal)
deriving DecidableEq, Repr

structure Walker where
  directory : Zone.Directory
  ledger : Ledger
  network : Network
  manner : Manner
  families : List FamilyName
  /-- A walk starts at the delegations that the directory knows. -/
  useDelegations : Bool
  maxSteps : Nat
  /-- How many walks may be nested to find the addresses of nameservers. -/
  maxDepth : Nat

namespace Walker

def wants (w : Walker) (f : Family) : Bool :=
  w.families.contains (.known f)

/-- Asks a server, if a message can announce the payload. -/
def ask (w : Walker) (server : Server) (q : Question) (type : RecordType) (j : Journal)
    : Except Refusal (Except QueryFault Response) × Journal :=
  match w.manner.pose w.network server.address q type j with
  | (.error fault, j) => (.error (.payload fault), j)
  | (.ok answer, j) => (.ok answer, j)

def rootCut (w : Walker) : Except WalkFault Cut :=
  match w.directory.servers w.families with
  | .error family => .error (.refused (.unknownFamily family))
  | .ok [] => .error (.unresolved ⟨.zone .root, .noRoots⟩)
  | .ok servers => .ok ⟨.root, w.ledger.ranked servers⟩

/-- The cut at which the walk to a name starts: the deepest delegation of the directory that
covers it, if its nameservers have addresses, or else the root. -/
def startCut (w : Walker) (name : String) : Except WalkFault Cut :=
  if w.useDelegations then
    match w.directory.delegationFor name with
    | none => w.rootCut
    | some d =>
        match d.servers w.families with
        | [] => w.rootCut
        | servers => .ok ⟨d.name, w.ledger.ranked servers⟩
  else w.rootCut

end Walker

end NameserverAudit
