import NameserverAudit.Text.TextSet

/-!
One address of a nameserver. A nameserver with two addresses is two servers. Servers are put in
order by name, then by address.
-/

namespace NameserverAudit

structure Server where
  name : String
  address : String
deriving DecidableEq, Repr, Inhabited

namespace Server

def text (s : Server) : String :=
  s!"{s.name} ({s.address})"

/-- The order by name, then by address, both by code points. -/
def before (s t : Server) : Bool :=
  s.name < t.name || (s.name = t.name && s.address < t.address)

def sorted (servers : List Server) : List Server :=
  servers.mergeSort fun s t => !t.before s

/-- Sorting moves servers and neither adds nor drops one. -/
theorem sorted_perm (servers : List Server) : (sorted servers).Perm servers :=
  List.mergeSort_perm servers _

end Server

end NameserverAudit
