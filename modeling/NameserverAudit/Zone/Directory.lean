import NameserverAudit.Address.Printer
import NameserverAudit.Disk
import NameserverAudit.Name.Canonical
import NameserverAudit.Server
import NameserverAudit.Zone.MasterFile

/-!
The directory of a root zone: the root servers with their addresses, and the delegations from
the root with their nameservers and the addresses known for these. Only nameserver and address
records count. Names are in canonical form.
-/

namespace NameserverAudit

/-- A family of addresses that is asked for by name; a name may belong to none. -/
inductive FamilyName where
  | known (f : Family)
  | other (name : String)
deriving DecidableEq, Repr

def FamilyName.ofText (s : String) : FamilyName :=
  if s = Family.ipv4.name then .known .ipv4
  else if s = Family.ipv6.name then .known .ipv6
  else .other s

def FamilyName.text : FamilyName → String
  | .known f => f.name
  | .other name => name

/-- A root server has no addresses of a family with this name. -/
structure UnknownFamily where
  name : String
deriving DecidableEq, Repr

/-- The wording of a family that root servers do not have. -/
def UnknownFamily.message (e : UnknownFamily) : String :=
  s!"'RootServerRecord' object has no attribute {Text.quoted e.name}"

namespace Zone

structure RootServer where
  name : String
  ipv4 : TextSet
  ipv6 : TextSet
deriving DecidableEq

/-- A delegation from the root. Nameservers without known addresses are not in the glue. -/
structure Delegation where
  name : DomainName
  nameservers : List String
  glue : List (String × List String)
deriving DecidableEq, Repr

/-- The root servers and the delegations of a zone, in the order of the zone. -/
structure Directory where
  roots : List RootServer
  delegations : List Delegation
deriving DecidableEq

instance : Inhabited Directory := ⟨⟨[], []⟩⟩

namespace RootServer

def addresses (r : RootServer) : Family → TextSet
  | .ipv4 => r.ipv4
  | .ipv6 => r.ipv6

/-- The servers that a root server's addresses make, family by family. -/
def servers (r : RootServer) : List FamilyName → Except UnknownFamily (List Server)
  | [] => .ok []
  | .other name :: _ => .error ⟨name⟩
  | .known f :: rest =>
      match r.servers rest with
      | .error e => .error e
      | .ok more => .ok ((r.addresses f).toList.map (Server.mk r.name) ++ more)

end RootServer

namespace Delegation

def zone (d : Delegation) : String :=
  d.name.canonicalText

def glueOf (d : Delegation) (ns : String) : List String :=
  match d.glue.find? fun entry => entry.1 = ns with
  | some entry => entry.2
  | none => []

/-- The family of an address, told by its colons. -/
def familyOf (address : String) : Family :=
  if address.toList.contains ':' then .ipv6 else .ipv4

/-- The servers of the wanted families, in the order of the nameservers. -/
def servers (d : Delegation) (families : List FamilyName) : List Server :=
  d.nameservers.flatMap fun ns =>
    ((d.glueOf ns).filter fun address => families.contains (.known (familyOf address))).map
      (Server.mk ns)

end Delegation

/-! ### From records -/

structure Addresses where
  owner : String
  ipv4 : TextSet
  ipv6 : TextSet
deriving DecidableEq

/-- The nameservers of an owner, without repetition. -/
structure Nameservers where
  owner : DomainName
  targets : List String
deriving DecidableEq, Repr

def addNameserver (owner : DomainName) (target : String) : List Nameservers → List Nameservers
  | [] => [⟨owner, [target]⟩]
  | n :: rest =>
      if n.owner.canonicalText = owner.canonicalText then
        (if n.targets.contains target then n else { n with targets := n.targets ++ [target] })
          :: rest
      else n :: addNameserver owner target rest

def addAddress (owner : String) (address : Address) : List Addresses → List Addresses
  | [] => addAddress.into ⟨owner, .empty, .empty⟩ address :: []
  | a :: rest =>
      if a.owner = owner then addAddress.into a address :: rest
      else a :: addAddress owner address rest
where
  into (a : Addresses) (address : Address) : Addresses :=
    match address.family with
    | .ipv4 => { a with ipv4 := a.ipv4.insert address.presentation }
    | .ipv6 => { a with ipv6 := a.ipv6.insert address.presentation }

/-- The records sorted by owner, owners in the order in which they first came; the bound is the
number of records. -/
def byOwner : Nat → List Record → List Record
  | 0, rs => rs
  | _, [] => []
  | bound + 1, r :: rest =>
      let same (s : Record) : Bool := s.owner.same r.owner
      r :: rest.filter same ++ byOwner bound (rest.filter fun s => !same s)

def nameserversOf (rs : List Record) : List Nameservers :=
  rs.foldl
    (fun out r =>
      match r.data with
      | .nameserver target => addNameserver r.owner target.canonicalText out
      | _ => out)
    []

def addressesOf (rs : List Record) : List Addresses :=
  rs.foldl
    (fun out r =>
      match r.data with
      | .address a => addAddress r.owner.canonicalText a out
      | _ => out)
    []

def addressesAt (all : List Addresses) (owner : String) : Option Addresses :=
  all.find? fun a => a.owner = owner

/-- The root server of a name, if it has addresses. -/
def rootServer? (all : List Addresses) (name : String) : Option RootServer :=
  (addressesAt all name).map fun a => ⟨name, a.ipv4, a.ipv6⟩

/-- A delegation with the glue of its nameservers. -/
def delegationOf (all : List Addresses) (n : Nameservers) : Delegation :=
  let glue := n.targets.filterMap fun ns =>
    (addressesAt all ns).map fun a => (ns, a.ipv4.toList ++ a.ipv6.toList)
  ⟨n.owner, n.targets, glue⟩

namespace Directory

def rootNames (ns : List Nameservers) : List String :=
  ((ns.find? fun n => n.owner.canonicalText = ".").map (·.targets)).getD []

/-- The directory of records, which may have no root server. -/
def ofRecords (rs : List Record) : Directory :=
  let sorted := byOwner rs.length rs
  let ns := nameserversOf sorted
  let all := addressesOf sorted
  { roots := (rootNames ns).filterMap (rootServer? all)
    delegations := (ns.filter fun n => n.owner.canonicalText ≠ ".").map (delegationOf all) }

/-- The nameservers of the root that have no addresses. -/
def withoutAddresses (rs : List Record) : List String :=
  let sorted := byOwner rs.length rs
  (rootNames (nameserversOf sorted)).filter fun name =>
    (rootServer? (addressesOf sorted) name).isNone

/-! ### Looking up -/

/-- The root server with a name, in any spelling. -/
def root? (d : Directory) (name : String) : Option RootServer :=
  d.roots.find? fun r => r.name = canonicalName name

/-- The servers of root servers in the given order. -/
def serversOf (families : List FamilyName) : List RootServer → Except UnknownFamily (List Server)
  | [] => .ok []
  | r :: rest =>
      match r.servers families with
      | .error e => .error e
      | .ok front =>
          match serversOf families rest with
          | .error e => .error e
          | .ok more => .ok (front ++ more)

/-- The servers of all root servers, in the order of their names. -/
def servers (d : Directory) (families : List FamilyName)
    : Except UnknownFamily (List Server) :=
  serversOf families (d.roots.mergeSort fun r s => !(s.name < r.name))

def delegation? (d : Directory) (zone : String) : Option Delegation :=
  d.delegations.find? fun e => e.zone = zone

/-- The delegation of the first zone, among that of all labels and those of fewer and fewer of
the last labels. -/
def covering (d : Directory) : List (List Char) → Option Delegation
  | [] => none
  | label :: rest =>
      let zone := String.ofList (List.intercalate ['.'] (label :: rest) ++ ['.'])
      match d.delegation? zone with
      | some e => some e
      | none => d.covering rest

/-- The deepest delegation that covers a domain. -/
def delegationFor (d : Directory) (domain : String) : Option Delegation :=
  d.covering (Text.splitOn '.' (Text.dropFinalDots (canonicalName domain).toList))

end Directory

/-! ### From text -/

inductive Fault where
  | file (fault : FileFault)
  | notText (source : String) (fault : Text.Utf8.Fault)
  | text (source : String) (fault : TextFault)
  /-- The zone has no root server with an address. -/
  | noRoots (source : String)
deriving DecidableEq, Repr

def Fault.message : Fault → String
  | .file fault => fault.message
  | .notText source fault => Disk.notText source fault
  | .text source fault =>
      if fault.isRefusal then s!"{source}: {fault.message}" else fault.message
  | .noRoots source => s!"{source}: no root nameservers with addresses found"

/-- What reading a directory gives: the directory or a fault, and in any case the nameservers
of the root that were left out because they have no addresses. -/
structure Reading where
  directory : Except Fault Directory
  leftOut : List String

/-- A reader of the records of a text. -/
abbrev Reader := List Char → Except TextFault (List Record)

/-- The reading of a text whose records are known. -/
def Reading.ofRecords (source : String) : Except TextFault (List Record) → Reading
  | .error fault => ⟨.error (.text source fault), []⟩
  | .ok rs =>
      let d := Directory.ofRecords rs
      ⟨if d.roots.isEmpty then .error (.noRoots source) else .ok d,
        Directory.withoutAddresses rs⟩

/-- The text somewhere has the directive that sets a time to live. -/
def mentionsTtl : List Char → Bool
  | [] => false
  | c :: rest => "$TTL".toList.isPrefixOf (c :: rest) || mentionsTtl rest

/-- The line that sets a time to live. -/
def ttlLine : List Char := "$TTL 3600000\n".toList

/-- Zone text that sets a time to live; one is put in front if the directive is not mentioned
anywhere. -/
def withTtl (text : List Char) : List Char :=
  if mentionsTtl text then text else ttlLine ++ text

namespace Directory

/-- Reads a directory from text, with a reader of its records. -/
def ofTextBy (reader : Reader) (source text : String) : Reading :=
  .ofRecords source (reader (withTtl text.toList))

def ofText (source text : String) : Reading :=
  ofTextBy recordsOf source text

def load (disk : Disk) (path : String) : Reading :=
  match disk.read path with
  | .error fault => ⟨.error (.file fault), []⟩
  | .ok bytes =>
      match Disk.decodeText bytes with
      | .error fault => ⟨.error (.notText path fault), []⟩
      | .ok text => ofText path text

end Directory

end Zone

end NameserverAudit
