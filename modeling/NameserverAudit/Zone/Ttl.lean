import NameserverAudit.Text.Digit

/-!
Times to live: a number of seconds, or numbers with the units week, day, hour, minute and
second, which are added up. The sum has at most 32 bits.
-/

namespace NameserverAudit.Zone.Ttl

open NameserverAudit.Text

def greatest : Nat := Nat.pow 2 32 - 1

def unit? (c : Char) : Option Nat :=
  match c.toLower with
  | 'w' => some 604800
  | 'd' => some 86400
  | 'h' => some 3600
  | 'm' => some 60
  | 's' => some 1
  | _ => none

/-- The sum of numbers with units. `current` is the number before the next unit, if there is
one; a number that is not zero needs a unit after it. -/
def sum? (total : Nat) (current : Option Nat) : List Char → Option Nat
  | [] => if current.getD 0 = 0 then some total else none
  | c :: rest =>
      match digit? c with
      | some d => sum? total (some (10 * current.getD 0 + d)) rest
      | none =>
          match current, unit? c with
          | some n, some u => sum? (total + n * u) none rest
          | _, _ => none

def ofChars? (cs : List Char) : Option Nat :=
  let total :=
    match cs.mapM digit? with
    | some [] => none
    | some ds => some (ds.foldl (fun n d => 10 * n + d) 0)
    | none => sum? 0 none cs
  total.filter (· ≤ greatest)

end NameserverAudit.Zone.Ttl
