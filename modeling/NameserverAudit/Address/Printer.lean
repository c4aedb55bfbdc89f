import NameserverAudit.Address.Basic

/-!
Two written forms of addresses. The canonical form of version 6 shortens the longest run of at
least two zero groups, the first of several, to two colons. The presentation form of zone files
does the same, but shows the last 32 bits as an address of version 4 when only they, or only
they and a group `ffff` before them, differ from zero.
-/

namespace NameserverAudit

namespace Ipv4

def chars (a : Ipv4) : List Char :=
  List.intercalate ['.'] (a.bytes.map fun b => Nat.toDigits 10 b.toNat)

def text (a : Ipv4) : String :=
  String.ofList a.chars

end Ipv4

namespace Ipv6

def zerosInFront (groups : List UInt16) : Nat :=
  (groups.takeWhile (· = 0)).length

/-- The start and the length of the longest run of zero groups, the first of several; `start`
is the place of the first group of the list. -/
def longestRun (start : Nat) : List UInt16 → Nat × Nat
  | [] => (start, 0)
  | g :: rest =>
      let here := zerosInFront (g :: rest)
      let later := longestRun (start + 1) rest
      if later.2 ≤ here then (start, here) else later

/-- A group in hexadecimal notation, without leading zeros. -/
def groupChars (g : UInt16) : List Char :=
  Nat.toDigits 16 g.toNat

def joined (groups : List UInt16) : List Char :=
  List.intercalate [':'] (groups.map groupChars)

def chars (a : Ipv6) : List Char :=
  let (start, length) := longestRun 0 a.groups
  if length < 2 then joined a.groups
  else joined (a.groups.take start) ++ [':', ':'] ++ joined (a.groups.drop (start + length))

/-- The last 32 bits as an address of version 4. -/
def lowAddress (a : Ipv6) : Ipv4 :=
  let low := a.groups.drop 6
  ⟨low.flatMap fun g => [UInt8.ofNat (g.toNat / 256), UInt8.ofNat (g.toNat % 256)], by
    have h := a.length_eq
    have : low.length = 2 := by simp [low, h]
    match hl : low with
    | [_, _] => simp
    | [] | [_] | _ :: _ :: _ :: _ => simp_all⟩

def presentationChars (a : Ipv6) : List Char :=
  let (start, length) := longestRun 0 a.groups
  if start = 0 && length = 6 then [':', ':'] ++ a.lowAddress.chars
  else if start = 0 && length = 5 && a.groups[5]? = some 0xffff then
    "::ffff:".toList ++ a.lowAddress.chars
  else a.chars

end Ipv6

namespace Address

def text : Address → String
  | .v4 a => a.text
  | .v6 a scope =>
      String.ofList a.chars
        ++ (match scope with
            | none => ""
            | some s => "%" ++ s)

def presentation : Address → String
  | .v4 a => a.text
  | .v6 a _ => String.ofList a.presentationChars

end Address

end NameserverAudit
