import NameserverAudit.Zone.Token
import NameserverAudit.Zone.Ttl

/-!
The fields of an entry: each reader takes a field from the front of the tokens and leaves the
rest. An escape is a backslash before a character that stands for itself or before the three
digits of a code.
-/

namespace NameserverAudit.Zone

/-- Characters without their escapes; `code` makes the character of three digits, `plain` that
of any other. -/
def unescapeWith {α : Type} (code : Nat → List α) (plain : Char → List α)
    : List Char → Option (List α)
  | [] => some []
  | '\\' :: a :: rest =>
      if (DomainName.digit? a).isSome then
        match rest with
        | b :: c :: rest =>
            match DomainName.byte? a b c with
            | some byte => (unescapeWith code plain rest).map (code byte.toNat ++ ·)
            | none => none
        | _ => none
      else (unescapeWith code plain rest).map (plain a ++ ·)
  | ['\\'] => none
  | c :: rest => (unescapeWith code plain rest).map (plain c ++ ·)

def unescape (cs : List Char) : Except Flaw (List Char) :=
  match unescapeWith (fun n => [Char.ofNat n]) (fun c => [c]) cs with
  | some out => .ok out
  | none => .error .badText

/-- Bytes without their escapes: a code is a byte, any other character is encoded. -/
def unescapeBytes (cs : List Char) : Except Flaw (List UInt8) :=
  match unescapeWith (fun n => [UInt8.ofNat n]) Text.Utf8.encodeChar cs with
  | some out => .ok out
  | none => .error .badText

namespace Field

def rawWord : List Token → Except Flaw (List Char × List Token)
  | .word raw :: rest => .ok (raw, rest)
  | .broken flaw :: _ => .error flaw
  | _ => .error .noWord

def word (tokens : List Token) : Except Flaw (List Char × List Token) := do
  let (raw, rest) ← rawWord tokens
  return (← unescape raw, rest)

/-- A word or a quoted string without its escapes. -/
def text : List Token → Except Flaw (List Char × List Token)
  | .word raw :: rest | .quoted raw :: rest => do return (← unescape raw, rest)
  | .broken flaw :: _ => .error flaw
  | _ => .error .noText

/-- A domain name, relative to an origin unless it ends with a dot. -/
def name (origin : DomainName) (tokens : List Token) : Except Flaw (DomainName × List Token) := do
  let (raw, rest) ← rawWord tokens
  match DomainName.ofCharsWithin origin raw with
  | .ok n => return (n, rest)
  | .error fault => throw (.badName fault)

def number (greatest : Nat) (tokens : List Token) : Except Flaw (Nat × List Token) := do
  let (cs, rest) ← word tokens
  match cs.mapM Text.digit? with
  | some (d :: ds) =>
      let n := (d :: ds).foldl (fun n d => 10 * n + d) 0
      if n ≤ greatest then return (n, rest) else throw .badNumber
  | _ => throw .badNumber

def ttl (tokens : List Token) : Except Flaw (Nat × List Token) := do
  let (cs, rest) ← word tokens
  match Ttl.ofChars? cs with
  | some n => return (n, rest)
  | none => throw .badTtl

/-- All remaining words without their escapes, joined. -/
def joined : List Token → Except Flaw (List Char)
  | [] => .ok []
  | .word raw :: rest => do return (← unescape raw) ++ (← joined rest)
  | .broken flaw :: _ => .error flaw
  | _ => .error .noWord

/-- All remaining words and quoted strings, as bytes. -/
def texts : List Token → Except Flaw (List (List UInt8))
  | [] => .ok []
  | .word raw :: rest | .quoted raw :: rest => do
      return (← unescapeBytes raw) :: (← texts rest)
  | .broken flaw :: _ => .error flaw
  | _ => .error .noText

def done : List Token → Except Flaw Unit
  | [] => .ok ()
  | .broken flaw :: _ => .error flaw
  | _ => .error .trailingText

def hex : List Char → Except Flaw (List UInt8)
  | [] => .ok []
  | a :: b :: rest =>
      match hexDigit? a, hexDigit? b with
      | some m, some n => do return UInt8.ofNat (16 * m + n) :: (← hex rest)
      | _, _ => .error .badData
  | _ => .error .badData
where
  hexDigit? (c : Char) : Option Nat :=
    if '0' ≤ c && c ≤ '9' then some (c.toNat - '0'.toNat)
    else if 'a' ≤ c && c ≤ 'f' then some (c.toNat - 'a'.toNat + 10)
    else if 'A' ≤ c && c ≤ 'F' then some (c.toNat - 'A'.toNat + 10)
    else none

end Field

end NameserverAudit.Zone
