import NameserverAudit.Walk.Referral

/-!
The walk down the name space. At each cut the servers are asked in turn for the nameservers of
the name, until one answers for the name itself, which ends the walk, or refers to a zone
further down whose nameservers have addresses. The addresses of a nameserver come with the
referral; or else from the server that refers to it; or else from a nested walk to the
nameserver's own name, as long as the depth of nesting allows it. Where addresses are read off
record sets, an address record of another class ends the whole walk.
-/

namespace NameserverAudit

/-- A walk that finds the servers to ask about a name. -/
abbrev Search := Question → Journal → Except WalkFault Cut × Journal

namespace Walker

/-- The types of address records of the wanted families. -/
def addressTypes (w : Walker) : List RecordType :=
  (if w.wants .ipv4 then [.a] else []) ++ (if w.wants .ipv6 then [.aaaa] else [])

/-- The addresses that a server gives for a name, type after type; a query that fails gives
none. -/
def askTypes (w : Walker) (server : Server) (q : Question) (found : List String)
    : List RecordType → Journal → Except Refusal (List String) × Journal
  | [], j => (.ok found, j)
  | t :: rest, j =>
      match w.ask server q t j with
      | (.error refusal, j) => (.error refusal, j)
      | (.ok (.error _), j) => w.askTypes server q found rest j
      | (.ok (.ok r), j) =>
          match Response.firstForeign r.answer with
          | some record => (.error (.foreign record), j)
          | none => w.askTypes server q (Response.addNew found r.addresses) rest j

/-- The addresses that a server gives for a name. -/
def askAddresses (w : Walker) (server : Server) (q : Question) (j : Journal)
    : Except Refusal (List String) × Journal :=
  w.askTypes server q [] w.addressTypes j

/-- The addresses that the first of several servers gives that gives any. -/
def askInTurn (w : Walker) (q : Question)
    : List Server → Journal → Except Refusal (List String) × Journal
  | [], j => (.ok [], j)
  | server :: rest, j =>
      match w.askAddresses server q j with
      | (.ok [], j) => w.askInTurn q rest j
      | found => found

/-- The addresses of a nameserver that came without any: from the server that referred to it,
or from the servers that a nested walk finds. -/
def glueless (w : Walker) (nested : Option Search) (contacted : Server) (q : Question)
    (j : Journal) : Except Refusal (List String) × Journal :=
  match w.askAddresses contacted q j with
  | (.ok [], j) =>
      match nested with
      | none => (.ok [], j)
      | some search =>
          match search q j with
          | (.error (.unresolved _), j) => (.ok [], j)
          | (.error (.refused r), j) => (.error r, j)
          | (.ok cut, j) => w.askInTurn q cut.servers j
  | found => found

/-- The addresses of a nameserver that a response refers to. -/
def addressesFor (w : Walker) (nested : Option Search) (contacted : Server) (r : Response)
    (q : Question) (j : Journal) : Except Refusal (List String) × Journal :=
  match r.glueFor w.wants q.text with
  | [] => w.glueless nested contacted q j
  | found => (.ok found, j)

/-- The servers of a list that are not in another one, put at its end once each. -/
def addServers (out : List Server) : List Server → List Server
  | [] => out
  | s :: rest => if out.contains s then addServers out rest else addServers (out ++ [s]) rest

/-- The servers that nameservers make, one nameserver after the other, when the addresses that
come with a response can be read. -/
def referredServers (w : Walker) (nested : Option Search) (contacted : Server) (r : Response)
    (out : List Server)
    : List DomainName → Journal → Except Refusal (List Server) × Journal
  | [], j => (.ok out, j)
  | target :: rest, j =>
      let q := Question.ofName target
      match w.addressesFor nested contacted r q j with
      | (.error refusal, j) => (.error refusal, j)
      | (.ok found, j) =>
          w.referredServers nested contacted r (addServers out (found.map (Server.mk q.text)))
            rest j

/-- The servers that a response refers to. All addresses that come with it are read first,
whosever they are. -/
def serversOf (w : Walker) (nested : Option Search) (contacted : Server) (r : Response)
    (targets : List DomainName) (j : Journal) : Except Refusal (List Server) × Journal :=
  match Response.firstForeign r.additional with
  | some record => (.error (.foreign record), j)
  | none => w.referredServers nested contacted r [] targets j

inductive Landing where
  /-- The servers of the cut answer for the name. -/
  | arrived (cut : Cut)
  /-- The servers of the next cut have to be asked. -/
  | onward (cut : Cut)
deriving DecidableEq, Repr

/-- One step: the servers of a cut are asked in turn until one is of use. The cause tells why
the last one was not. -/
def step (w : Walker) (nested : Option Search) (q : Question) (cut : Cut) (cause : Cause)
    : List Server → Journal → Except WalkFault Landing × Journal
  | [], j => (.error (.unresolved ⟨.zone cut.zone, cause⟩), j)
  | server :: rest, j =>
      match w.ask server q .ns j with
      | (.error refusal, j) => (.error (.refused refusal), j)
      | (.ok (.error fault), j) => w.step nested q cut (.query fault) rest j
      | (.ok (.ok r), j) =>
          if r.authoritative then (.ok (.arrived cut), j)
          else
            match r.referral? cut.zone q.name with
            | none => w.step nested q cut (.lame server q.text) rest j
            | some referral =>
                let child := referral.zone.canonicalText
                match w.serversOf nested server r referral.targets j with
                | (.error refusal, j) => (.error (.refused refusal), j)
                | (.ok [], j) => w.step nested q cut (.noAddress server child) rest j
                | (.ok servers, j) =>
                    let next : Cut := ⟨referral.zone, w.ledger.ranked servers⟩
                    (.ok (if child = q.text then .arrived next else .onward next), j)

/-- Steps from cut to cut, as many as are allowed. -/
def descend (w : Walker) (nested : Option Search) (q : Question)
    : Nat → Cut → Journal → Except WalkFault Cut × Journal
  | 0, cut, j => (.error (.unresolved ⟨.zone cut.zone, .loop⟩), j)
  | steps + 1, cut, j =>
      match w.step nested q cut .nobody cut.servers j with
      | (.error fault, j) => (.error fault, j)
      | (.ok (.arrived next), j) => (.ok next, j)
      | (.ok (.onward next), j) => w.descend nested q steps next j

/-- The walk from the start to the servers that answer for a name, with the searches nested in
it. -/
def walkWith (w : Walker) (nested : Option Search) : Search := fun q j =>
  match w.startCut q.text with
  | .error fault => (.error fault, j)
  | .ok cut => w.descend nested q w.maxSteps cut j

/-- The walk in which searches are nested up to a depth. -/
def walk (w : Walker) : Nat → Search
  | 0 => w.walkWith none
  | depth + 1 => w.walkWith (some (w.walk depth))

end Walker

end NameserverAudit
