import NameserverAudit.Verdict.Basic
import NameserverAudit.Walk.Descent

/-!
What the authoritative servers of a name publish. Every nameserver is asked for every wanted
type, at one address after the other until one gives an authoritative answer, and the answers
are merged by union. An address record of another class among them leaves nothing to publish.
-/

namespace NameserverAudit

structure Collected where
  nameservers : TextSet
  addresses : TextSet
  answered : List RecordType
  /-- Why the last nameserver without an answer had none. -/
  cause : Cause
deriving DecidableEq

namespace Walker

/-- The first authoritative answer of several servers, or why the last one gave none. -/
def firstAuthoritative (w : Walker) (q : Question) (type : RecordType) (cause : Cause)
    : List Server → Journal → Except Refusal (Except Cause Response) × Journal
  | [], j => (.ok (.error cause), j)
  | server :: rest, j =>
      match w.ask server q type j with
      | (.error refusal, j) => (.error refusal, j)
      | (.ok (.error fault), j) => w.firstAuthoritative q type (.query fault) rest j
      | (.ok (.ok r), j) =>
          if r.authoritative then (.ok (.ok r), j)
          else w.firstAuthoritative q type (.notAuthoritative server q.text) rest j

def merge (q : Question) (type : RecordType) (c : Collected) (r : Response) : Collected :=
  let answered := if c.answered.contains type then c.answered else c.answered ++ [type]
  if type = .ns then
    let targets := (Response.nameserversOf? q.name r.answer).getD []
    { c with
      answered
      nameservers := c.nameservers.union (.ofList (targets.map DomainName.canonicalText)) }
  else
    { c with
      answered
      addresses := c.addresses.union (.ofList (r.addressesOf type)) }

def collectTypes (w : Walker) (q : Question) (servers : List Server)
    : List RecordType → Collected → Journal → Except Refusal Collected × Journal
  | [], c, j => (.ok c, j)
  | type :: rest, c, j =>
      match w.firstAuthoritative q type c.cause servers j with
      | (.error refusal, j) => (.error refusal, j)
      | (.ok (.error cause), j) => w.collectTypes q servers rest { c with cause } j
      | (.ok (.ok r), j) =>
          match r.foreignOf type with
          | some record => (.error (.foreign record), j)
          | none => w.collectTypes q servers rest (merge q type c r) j

/-- Asks the nameservers with the given names, each at its addresses in the cut. -/
def collectNames (w : Walker) (q : Question) (cut : Cut) (wanted : List RecordType)
    : List String → Collected → Journal → Except Refusal Collected × Journal
  | [], c, j => (.ok c, j)
  | name :: rest, c, j =>
      match w.collectTypes q (cut.servers.filter fun s => s.name = name) wanted c j with
      | (.error refusal, j) => (.error refusal, j)
      | (.ok c, j) => w.collectNames q cut wanted rest c j

/-- What the servers of a cut publish about a name; a type that is wanted twice is asked for
once. -/
def collect (w : Walker) (q : Question) (cut : Cut) (wanted : List RecordType) (j : Journal)
    : Except WalkFault Published × Journal :=
  let names := (cut.servers.map (·.name)).eraseDups
  match w.collectNames q cut wanted.eraseDups names ⟨.empty, .empty, [], .noAuthority⟩ j with
  | (.error refusal, j) => (.error (.refused refusal), j)
  | (.ok c, j) =>
      if !wanted.isEmpty && c.answered.isEmpty then
        (.error (.unresolved ⟨.collection, c.cause⟩), j)
      else
        (.ok
          { nameservers := c.nameservers
            addresses := c.addresses
            nameserversAnswered := c.answered.contains .ns
            addressesAnswered := c.answered.contains .a || c.answered.contains .aaaa
            error := none }, j)

def wantedTypes (nameservers addresses : Bool) : List RecordType :=
  (if nameservers then [.ns] else []) ++ (if addresses then [.a, .aaaa] else [])

/-- What the authoritative servers of a domain publish: its nameservers, its addresses, or
both. A text that is no name is refused when the first server would be asked about it. -/
def resolve (w : Walker) (nameservers addresses : Bool) (domain : String) (j : Journal)
    : Except WalkFault Published × Journal :=
  let text := canonicalName domain
  match Question.ofText text with
  | .ok q =>
      match w.walk w.maxDepth q j with
      | (.error fault, j) => (.error fault, j)
      | (.ok cut, j) => w.collect q cut (wantedTypes nameservers addresses) j
  | .error fault =>
      match w.startCut text with
      | .error f => (.error f, j)
      | .ok cut =>
          if w.maxSteps = 0 then (.error (.unresolved ⟨.zone cut.zone, .loop⟩), j)
          else (.error (.refused (.badName fault)), j)

end Walker

end NameserverAudit
