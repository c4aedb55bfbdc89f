import NameserverAudit.Address.Basic
import NameserverAudit.Text.Blank

/-!
Reading address literals. Version 4 is four decimal numbers up to 255 without leading zeros.
Version 6 is eight hexadecimal groups, of which one run of zero groups may be written as two
colons and the last two as an address of version 4.
-/

namespace NameserverAudit

/-- A decimal number from 0 to 255 without leading zeros. -/
def Ipv4.byte? (cs : List Char) : Option UInt8 :=
  if cs.isEmpty || 3 < cs.length || !cs.all (fun c => '0' ≤ c && c ≤ '9') then none
  else if cs.head? = some '0' && 1 < cs.length then none
  else
    let n := cs.foldl (fun n c => 10 * n + (c.toNat - '0'.toNat)) 0
    if n < 256 then some (UInt8.ofNat n) else none

def Ipv4.ofChars? (cs : List Char) : Option Ipv4 :=
  match (Text.splitOn '.' cs).mapM Ipv4.byte? with
  | none => none
  | some bytes => if h : bytes.length = 4 then some ⟨bytes, h⟩ else none

namespace Ipv6

def hexValue? (c : Char) : Option Nat :=
  if '0' ≤ c && c ≤ '9' then some (c.toNat - '0'.toNat)
  else if 'a' ≤ c && c ≤ 'f' then some (c.toNat - 'a'.toNat + 10)
  else if 'A' ≤ c && c ≤ 'F' then some (c.toNat - 'A'.toNat + 10)
  else none

def group? (cs : List Char) : Option UInt16 :=
  if cs.isEmpty || 4 < cs.length then none
  else (cs.mapM hexValue?).map fun ds => UInt16.ofNat (ds.foldl (fun n d => 16 * n + d) 0)

/-- A piece between colons: nothing, or a group. -/
def piece? (cs : List Char) : Option (Option UInt16) :=
  if cs.isEmpty then some none else (group? cs).map some

def ofIpv4 (a : Ipv4) : List UInt16 :=
  match a.bytes with
  | [b0, b1, b2, b3] =>
      [UInt16.ofNat (b0.toNat * 256 + b1.toNat), UInt16.ofNat (b2.toNat * 256 + b3.toNat)]
  | _ => []

/-- The pieces of a text, of which the last one may be an address of version 4. -/
def pieces? (cs : List Char) : Option (List (Option UInt16)) :=
  let parts := Text.splitOn ':' cs
  match parts.getLast? with
  | none => none
  | some last =>
      if last.contains '.' then do
        let front ← parts.dropLast.mapM piece?
        let a ← Ipv4.ofChars? last
        return front ++ (ofIpv4 a).map some
      else parts.mapM piece?

/-- The groups after the gap: a colon at the very end stands for no group. -/
def low? : List (Option UInt16) → Option (List UInt16)
  | [] => none
  | [none] => some []
  | pieces => pieces.mapM id

/-- Groups before and after a gap, with the zero groups between them. -/
def fill? (high low : List UInt16) : Option (List UInt16) :=
  if high.length + low.length ≤ 7 then
    some (high ++ List.replicate (8 - (high.length + low.length)) 0 ++ low)
  else none

/-- The groups that pieces stand for. An empty piece is a gap; at the start or the end of the
text it needs another one beside it. -/
def assemble? (pieces : List (Option UInt16)) : Option (List UInt16) :=
  match pieces with
  | none :: none :: rest => (low? rest).bind (fill? [])
  | none :: _ => none
  | pieces =>
      let high := pieces.takeWhile Option.isSome
      match pieces.drop high.length with
      | [] => high.mapM id
      | _ :: rest =>
          match high.mapM id, low? rest with
          | some h, some l => fill? h l
          | _, _ => none

def ofChars? (cs : List Char) : Option Ipv6 :=
  match (pieces? cs).bind assemble? with
  | none => none
  | some groups => if h : groups.length = 8 then some ⟨groups, h⟩ else none

end Ipv6

namespace Address

/-- An address of version 6 with its scope, which follows a percent sign and is not empty. -/
def scoped? (cs : List Char) : Option Address :=
  let front := cs.takeWhile (· ≠ '%')
  match cs.drop front.length with
  | [] => (Ipv6.ofChars? front).map (.v6 · none)
  | _ :: scope =>
      if scope.isEmpty || scope.contains '%' then none
      else (Ipv6.ofChars? front).map (.v6 · (some (String.ofList scope)))

/-- The address that characters write, with nothing around it. -/
def ofChars? (cs : List Char) : Option Address :=
  if cs.contains '/' then none
  else
    match Ipv4.ofChars? cs with
    | some a => some (.v4 a)
    | none => scoped? cs

/-- The address that a text writes, with nothing around it. -/
def ofText? (s : String) : Option Address :=
  ofChars? s.toList

end Address

end NameserverAudit
