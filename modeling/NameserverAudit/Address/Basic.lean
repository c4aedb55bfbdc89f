import NameserverAudit.Text.Split

/-!
Internet addresses of both families, as values: four bytes, or eight groups of sixteen bits
with an optional scope.
-/

namespace NameserverAudit

inductive Family where
  | ipv4
  | ipv6
deriving DecidableEq, Repr, Inhabited

def Family.name : Family → String
  | .ipv4 => "ipv4"
  | .ipv6 => "ipv6"

structure Ipv4 where
  bytes : List UInt8
  length_eq : bytes.length = 4
deriving DecidableEq, Repr

/-- An address of version 6: eight groups of sixteen bits. -/
structure Ipv6 where
  groups : List UInt16
  length_eq : groups.length = 8
deriving DecidableEq, Repr

inductive Address where
  | v4 (a : Ipv4)
  | v6 (a : Ipv6) (scope : Option String)
deriving DecidableEq, Repr

def Address.family : Address → Family
  | .v4 _ => .ipv4
  | .v6 _ _ => .ipv6

end NameserverAudit
